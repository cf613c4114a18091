import CircuitsUart.Lib.Fair
import CircuitsUart.Port.Expiry
import CircuitsUart.System.NoCrash

/-!
# Every call is answered

Nothing makes the two processes wait for ever. A call in the mailbox comes to the front, as a turn
is taken whenever one can be; a command is read; what it begins is answered when its deadline has
come, if not before; the response is delivered, and the callback that waits takes it before
anything else. A read may ask again, and does so no more often than its framer has room.

The stages of a request that is waited for are `At`; what remains of the room in the framer is the
measure of a read.

Each stage has two lemmas, that a request stays there as long as nothing is done for it, and that
what is done for it moves it on; `Lib.Fair` makes one `LeadsTo` of the two. The path of the stages
is walked once (`arrived_leadsTo` and what is before it), and an induction on the room in the framer
goes round it as often as a read may.

Time has no part in this but through one kind of fairness: what stays pending is looked at when it
is late. How long the port may take before the caller gives up is in `System.Clocked`.
-/

set_option autoImplicit false

namespace CircuitsUart

open Lib Port Server

/-! ## Where a request is -/

namespace System

variable {β : Type}

/-- Where the request is that a callback waits for. -/
inductive Stage
  | sent
  | begun
  | written
  | arrived

/-- The request is there. -/
def At (σ : System β) : Stage → Prop
  | .sent => σ.stdin ≠ []
  | .begun => σ.program.pending = true
  | .written => ∃ r, .response r ∈ σ.stdout
  | .arrived => responses σ.server.mailbox ≠ []

/-- The messages in front of the first response of the C program. -/
def ahead (σ : System β) : Nat := (σ.stdout.takeWhile fun o => !Program.isResponse o).length

/-- The messages in front of the first call in the mailbox. -/
def before (σ : System β) : Nat :=
  (σ.server.mailbox.takeWhile fun m => (mailCalls [m]).isEmpty).length

/-- How much more the framer can take without a message. -/
def room (σ : System β) : Nat :=
  σ.server.state.framer.capacity - σ.server.state.framer.buffered.length

/-- What is behind the one that is looked for does not count. -/
theorem takeWhile_append_of_mem {α : Type} {p : α → Bool} {l : List α} {a : α} (mem : a ∈ l)
    (found : p a = false) (more : List α) : (l ++ more).takeWhile p = l.takeWhile p := by
  induction l with
  | nil => exact absurd mem (by simp)
  | cons b l ih =>
    cases hb : p b with
    | false => simp [hb]
    | true =>
      rcases List.mem_cons.mp mem with rfl | later
      · exact absurd (found.symm.trans hb) (by simp)
      · simp [hb, ih later]

theorem exists_call {mailbox : List (Msg β)} (some : mailCalls mailbox ≠ []) :
    ∃ pid call, .call pid call ∈ mailbox := by
  by_contra none
  refine some (List.filterMap_eq_nil_iff.mpr fun m hm => ?_)
  cases m with
  | call pid call => exact absurd ⟨pid, call, hm⟩ none
  | _ => rfl

/-- What is waited for is somewhere. -/
theorem Aligned.exists_at {σ : System β} (A : Aligned σ) {p : Pending β}
    (waits : σ.server.pending = some p) : ∃ stage, At σ stage := by
  have count := A.count
  rw [waits, incoming, responses_append, List.length_append, responses_map_msg] at count
  by_contra nowhere
  have none : ∀ stage, ¬ At σ stage := fun stage h => nowhere ⟨stage, h⟩
  have sent : σ.stdin = [] := not_not.mp (none .sent)
  have begun : σ.program.pending = false := by simpa [At] using none .begun
  have arrived : responses σ.server.mailbox = [] := not_not.mp (none .arrived)
  have written : σ.stdout.countP Program.isResponse = 0 := by
    refine List.countP_eq_zero.mpr fun o ho response => ?_
    cases o with
    | response r => exact none .written ⟨r, ho⟩
    | notif n => exact absurd response (by simp [Program.isResponse])
  rw [sent, begun, arrived, written] at count
  exact absurd count (by simp)

/-! ## What a step does to a request -/

variable [Octet β]

/-- Only a turn changes the server, but for what comes to the mailbox, and only a turn replies. -/
theorem Step.others {σ σ' : System β} {e : Event β} {out : List (Label β)} (h : Step σ e σ' out)
    (noTurn : ∀ now clock, e ≠ .turn now clock) :
    σ'.server.state = σ.server.state ∧ σ'.server.pending = σ.server.pending ∧
      replies (serverLabels out) = [] ∧ ∃ more, σ'.server.mailbox = σ.server.mailbox ++ more := by
  cases h with
  | turn => exact absurd rfl (noTurn _ _)
  | call | expire | deliver => exact ⟨rfl, rfl, rfl, _, rfl⟩
  | request | process => exact ⟨rfl, rfl, rfl, [], (List.append_nil _).symm⟩

/-- A callback that waits goes on when the response has arrived. -/
theorem arrived_of_turn {σ σ' : System β} {now clock : Int} {out : List (Label β)}
    (h : Step σ (.turn now clock) σ' out) (waits : σ.server.pending ≠ none) : At σ .arrived := by
  cases h with
  | turn next =>
    rcases next_eq_some next with ⟨_, -, idle, -⟩ | ⟨_, r, front, behind, -, -, mailbox, -⟩
    · exact absurd idle waits
    · rw [At, mailbox, responses_append]
      simp [responses]

variable {h : List (Label β)} {σ σ' : System β} {e : Event β} {out : List (Label β)}

omit [Octet β] in
/-- A program that owes one response has something pending, or has sent it. -/
theorem begun_or_written {q : Program β} (owed : q.owed = 1) :
    q.pending = true ∨ ∃ r, .response r ∈ q.out := by
  cases pending : q.pending with
  | true => exact .inl rfl
  | false =>
    have sent : 0 < q.out.countP Program.isResponse := by
      rw [Program.owed, pending] at owed
      exact Nat.lt_of_lt_of_eq Nat.one_pos owed.symm
    obtain ⟨o, ho, response⟩ := List.countP_pos_iff.mp sent
    cases o with
    | response r => exact .inr ⟨r, ho⟩
    | notif n => exact absurd response (by simp [Program.isResponse])

/-- A command that is read begins something, or is answered. -/
theorem Sane.request (S : Sane h σ) {os : Os β} (took : Step σ (.request os) σ' out) :
    At σ' .begun ∨ At σ' .written := by
  cases took with
  | request stdin handled =>
    obtain ⟨-, idle, -⟩ := S.served.aligned.asked stdin
    obtain ⟨-, owed⟩ := Program.handle_answered idle handled
    refine (begun_or_written owed).imp id ?_
    rintro ⟨r, sent⟩
    exact ⟨r, List.mem_append_right _ sent⟩

/-- What is pending stays so, or is answered. -/
theorem Sane.process (S : Sane h σ) {os : Os β} (took : Step σ (.process os) σ' out)
    (begun : At σ .begun) : At σ' .begun ∨ At σ' .written := by
  cases took with
  | @process _ q handled =>
    have sound := S.served.aligned.sound
    have kept := Program.uartProcess_kept (p := σ.program.enter os)
      ⟨sound.one, sound.isOpen, sound.passive⟩ os
    rw [show (σ.program.enter os).uartProcess os = .ok q from handled] at kept
    have one : (σ.program.enter os).owed = 1 := by
      rw [Program.owed, show (σ.program.enter os).pending = true from begun]
      rfl
    refine (begun_or_written (kept.2.trans one)).imp id ?_
    rintro ⟨r, sent⟩
    exact ⟨r, List.mem_append_right _ sent⟩

/-- Everything that is pending is late. -/
def Overdue (σ : System β) (os : Os β) : Prop :=
  ∀ op, σ.program.uart.waits op = true →
    Program.late (σ.program.uart.completionDeadline op) (os.clock op) = true

/-- What is late is answered. -/
theorem Sane.expires (S : Sane h σ) {os : Os β} (took : Step σ (.process os) σ' out)
    (begun : At σ .begun) (overdue : Overdue σ os) : At σ' .written := by
  cases took with
  | @process _ q handled =>
    have sound := S.served.aligned.sound
    have placed : Program.Placed (σ.program.enter os) := sound.placed
    obtain ⟨op, waits⟩ : ∃ op, σ.program.uart.waits op = true := Program.exists_waits begun
    have answered := Program.uartProcess_expires placed waits (overdue op waits)
    rw [show (σ.program.enter os).uartProcess os = .ok q from handled] at answered
    have sent : 0 < q.out.countP Program.isResponse := Nat.zero_lt_of_lt answered
    obtain ⟨o, ho, response⟩ := List.countP_pos_iff.mp sent
    cases o with
    | response r => exact ⟨r, List.mem_append_right _ ho⟩
    | notif n => exact absurd response (by simp [Program.isResponse])

/-- A command that nobody reads stays where it is. -/
theorem sent_stays (took : Step σ e σ' out) (noTurn : ∀ now clock, e ≠ .turn now clock)
    (noRequest : ∀ os, e ≠ .request os) (sent : At σ .sent) : At σ' .sent := by
  cases took with
  | turn => exact absurd rfl (noTurn _ _)
  | request => exact absurd rfl (noRequest _)
  | call | expire | process | deliver => exact sent

/-- What is pending stays so as long as the C program does nothing. -/
theorem begun_stays (S : Sane h σ) (took : Step σ e σ' out)
    (noProcess : ∀ os, e ≠ .process os) (begun : At σ .begun) : At σ' .begun := by
  cases took with
  | process => exact absurd rfl (noProcess _)
  | request stdin =>
    obtain ⟨-, idle, -⟩ := S.served.aligned.asked stdin
    exact absurd (begun.symm.trans idle) (by simp)
  | call | expire | turn | deliver => exact begun

/-- A response that nobody delivers stays where it is. -/
theorem written_stays (took : Step σ e σ' out) (noDelivery : e ≠ .deliver)
    (written : At σ .written) : At σ' .written ∧ σ'.ahead = σ.ahead := by
  obtain ⟨r, mem⟩ := written
  cases took with
  | deliver => exact absurd rfl noDelivery
  | call | expire | turn => exact ⟨⟨r, mem⟩, rfl⟩
  | request | process =>
    refine ⟨⟨r, List.mem_append_left _ mem⟩, congrArg List.length ?_⟩
    exact takeWhile_append_of_mem mem rfl _

/-- A delivery is that of the response, or brings it nearer. -/
theorem written_delivered (took : Step σ .deliver σ' out) (written : At σ .written) :
    At σ' .arrived ∨ At σ' .written ∧ σ'.ahead < σ.ahead := by
  obtain ⟨r, mem⟩ := written
  cases took with
  | @deliver o rest stdout =>
    cases o with
    | response r =>
      left
      rw [At, responses_append]
      simp [responses, msg]
    | notif n =>
      right
      rw [stdout] at mem
      refine ⟨⟨r, by simpa using mem⟩, ?_⟩
      rw [ahead, ahead, stdout, List.takeWhile_cons_of_pos rfl, List.length_cons]
      exact Nat.lt_succ_self _

/-- A response in the mailbox stays there until a turn. -/
theorem arrived_stays (took : Step σ e σ' out) (noTurn : ∀ now clock, e ≠ .turn now clock)
    (arrived : At σ .arrived) : At σ' .arrived := by
  obtain ⟨-, -, -, more, mailbox⟩ := took.others noTurn
  rw [At, mailbox, responses_append]
  exact fun none => arrived (List.append_eq_nil_iff.mp none).1

/-- Before it arrives a response is nowhere in the mailbox. -/
theorem Sane.not_arrived (S : Sane h σ) {stage : Stage} (there : At σ stage)
    (other : stage ≠ .arrived) : ¬ At σ .arrived := by
  intro arrived
  obtain ⟨r, rs, mail⟩ := List.exists_cons_of_ne_nil arrived
  have mem : r ∈ responses σ.incoming := by
    rw [incoming, responses_append, mail]
    simp
  obtain ⟨stdin, idle, one⟩ := S.served.aligned.answered mem
  cases stage with
  | sent => exact there stdin
  | begun => exact absurd (there.symm.trans idle) (by simp)
  | arrived => exact other rfl
  | written =>
    obtain ⟨r', sent⟩ := there
    rw [incoming, responses_append, mail] at one
    have none : responses (σ.stdout.map msg) = [] :=
      (List.append_eq_nil_iff.mp (List.cons.inj one).2).2
    exact absurd (mem_responses_map_msg.mpr sent) (by simp [none])

omit [Octet β] in
theorem next_ne_none {server : Server β} (waits : server.pending ≠ none)
    (arrived : responses server.mailbox ≠ []) : Server.next server ≠ none := by
  obtain ⟨p, hp⟩ := Option.ne_none_iff_exists'.mp waits
  have taken : ∀ {mailbox : List (Msg β)},
      responses mailbox ≠ [] → takeResponse mailbox ≠ none := by
    intro mailbox some
    induction mailbox with
    | nil => exact absurd rfl some
    | cons m ms ih =>
      cases m with
      | resp r => simp [takeResponse]
      | _ =>
        obtain ⟨⟨r, rest⟩, hms⟩ := Option.ne_none_iff_exists'.mp (ih some)
        simp [takeResponse, hms]
  obtain ⟨⟨r, rest⟩, ht⟩ := Option.ne_none_iff_exists'.mp (taken arrived)
  simp [Server.next, hp, ht]

/-- A response ends the callback, or the framer has less room than it had. -/
theorem Sane.turn_waits (S : Sane h σ) {now clock : Int}
    (took : step σ (.turn now clock) = some (σ', out)) {p : Pending β}
    (waits : σ.server.pending = some p) :
    0 < (replies (serverLabels out)).length ∨
      σ'.server.pending ≠ none ∧ σ'.room < σ.room := by
  obtain ⟨taken, rest, ran, next, run, rfl, rfl⟩ := step_turn took
  rcases next_eq_some next with ⟨_, -, idle, -⟩ | ⟨p', r, _, _, rfl, waits', -⟩
  · exact absurd (idle.symm.trans waits) (by simp)
  obtain rfl := Option.some.inj (waits'.symm.trans waits)
  obtain ⟨-, mem⟩ := mem_responses_of_next next
  obtain ⟨call, serves⟩ := S.waiting waits
  have handles := resume_handles run serves ((S.served.serving _ waits).2 r mem)
  rw [serverLabels_map]
  cases handles with
  | replied replied => exact .inl (by simp [replied])
  | waits _ pending =>
    right
    cases serves with
    | read timeout left callTime fromPid =>
      obtain ⟨ran', hran, ends⟩ := @resumeReading_cases _ _ σ.server.state σ.server.timers
        fromPid left callTime now clock S.framer r
      obtain rfl := Option.some.inj (hran.symm.trans run)
      rcases ends with ⟨ended, -⟩ | ⟨again, usable, same, more⟩
      · exact absurd (ended.symm.trans pending) (by simp)
      · refine ⟨by simp [again], ?_⟩
        have fits := usable.buffered_lt
        show ran'.state.framer.capacity - ran'.state.framer.buffered.length < σ.room
        rw [room, same]
        omega
    | configuration =>
      cases r with
      | options =>
        obtain rfl := Option.some.inj run
        exact absurd pending (by simp [replyWith])
      | _ => exact absurd run (by simp [Server.run, resume])
    | _ =>
      obtain rfl := Option.some.inj run
      exact absurd pending (by simp [replyWith, resumeOpening, resumeClosing])

/-- With nobody waiting a turn takes the first call, or brings it nearer. -/
theorem Sane.turn_idle {now clock : Int} (took : step σ (.turn now clock) = some (σ', out))
    (idle : σ.server.pending = none) (mail : mailCalls σ.server.mailbox ≠ []) :
    0 < (replies (serverLabels out)).length ∨ σ'.server.pending ≠ none ∨
      σ'.server.pending = none ∧ mailCalls σ'.server.mailbox ≠ [] ∧ σ'.before < σ.before := by
  obtain ⟨taken, rest, ran, next, run, rfl, rfl⟩ := step_turn took
  rcases next_eq_some next with ⟨m, rfl, -, mailbox⟩ | ⟨p', _, _, _, -, waits, -⟩
  swap
  · exact absurd (idle.symm.trans waits) (by simp)
  rw [serverLabels_map]
  by_cases isCall : ∃ pid call, m = .call pid call
  · obtain ⟨pid, call, rfl⟩ := isCall
    obtain rfl := Option.some.inj run
    cases handleCall_handles σ.server.state σ.server.timers pid clock call with
    | replied replied => exact .inl (by simp [replied])
    | waits _ pending =>
      refine .inr (.inl ?_)
      show (handleCall _ _ _ _ _).pending ≠ none
      simp [pending]
  · have other : ∀ pid call, m ≠ .call pid call := fun pid call heq => isCall ⟨pid, call, heq⟩
    have noMail : mailCalls [m] = [] := by
      cases m with
      | call pid call => exact absurd rfl (other pid call)
      | _ => rfl
    refine .inr (.inr ⟨(run_silent run other).2, ?_, ?_⟩)
    · rw [mailbox, ← List.singleton_append, mailCalls_append, noMail] at mail
      exact mail
    · show (rest.takeWhile _).length < σ.before
      rw [before, mailbox, List.takeWhile_cons_of_pos (by simp [noMail]), List.length_cons]
      exact Nat.lt_succ_self _

/-! ## Fair runs -/

/-- Neither process, nor the pipe between them, is put off for ever; and time passes: what stays
pending is looked at when it is late. -/
structure Fair (run : Execution step Fit ({} : System β)) : Prop where
  turns : run.FairTo fun e => ∃ now clock, e = .turn now clock
  deliveries : run.FairTo fun e => e = .deliver
  requests : run.FairTo fun e => ∃ os, e = .request os
  time : WeaklyFair (fun n => ∃ os, run.event n = .process os ∧ Overdue (run.state n) os)
    fun n => (run.state n).program.pending = true

section

variable {run : Execution step Fit ({} : System β)} (fair : Fair run) {r k n : ℕ}

theorem sane_at (run : Execution step Fit ({} : System β)) (n : ℕ) :
    Sane (past run.out n) (run.state n) := sane_of_reach (run.reach n)

/-- How many calls have had their reply. -/
def replied (run : Execution step Fit ({} : System β)) (n : ℕ) : ℕ :=
  (replies (serverLabels (past run.out n))).length

theorem replied_succ (run : Execution step Fit ({} : System β)) (n : ℕ) :
    replied run (n + 1) = replied run n + (replies (serverLabels (run.out n))).length := by
  rw [replied, replied, past, serverLabels_append, replies_append, List.length_append]

/-- A callback waits for the port, with this much room in the framer, after so many replies. -/
structure Waiting (run : Execution step Fit ({} : System β)) (r k n : ℕ) : Prop where
  replied : r ≤ replied run n
  waits : (run.state n).server.pending ≠ none
  room : (run.state n).room = k

/-- It waits on until the next turn. -/
theorem Waiting.succ (W : Waiting run r k n)
    (noTurn : ∀ now clock, run.event n ≠ .turn now clock) : Waiting run r k (n + 1) := by
  obtain ⟨state, pending, -, -⟩ := (step_cases (run.took n)).others noTurn
  refine ⟨?_, by rw [pending]; exact W.waits, ?_⟩
  · rw [replied_succ]
    exact W.replied.trans (Nat.le_add_right _ _)
  · rw [System.room, state]
    exact W.room

/-- There is no turn for it before the response has arrived. -/
theorem Waiting.noTurn (W : Waiting run r k n) {stage : Stage} (there : At (run.state n) stage)
    (other : stage ≠ .arrived) : ∀ now clock, run.event n ≠ .turn now clock := by
  intro now clock turn
  have took := run.took n
  rw [turn] at took
  exact (sane_at run n).not_arrived there other (arrived_of_turn (step_cases took) W.waits)

include fair

theorem sent_leadsTo : LeadsTo (fun n => Waiting run r k n ∧ At (run.state n) .sent) fun n =>
    Waiting run r k n ∧ At (run.state n) .begun ∨
      Waiting run r k n ∧ At (run.state n) .written := by
  have goes : ∀ n os, Waiting run r k n → At (run.state n) .sent → run.event n = .request os →
      Waiting run r k (n + 1) ∧ At (run.state (n + 1)) .begun ∨
        Waiting run r k (n + 1) ∧ At (run.state (n + 1)) .written := by
    intro n os W sent request
    have took := step_cases (run.took n)
    rw [request] at took
    have W' := W.succ (W.noTurn sent (by simp))
    exact ((sane_at run n).request took).imp (⟨W', ·⟩) (⟨W', ·⟩)
  refine LeadsTo.of_fair fair.requests ?_ ?_ ?_
  · rintro n ⟨W, sent⟩
    by_cases request : ∃ os, run.event n = .request os
    · obtain ⟨os, request⟩ := request
      exact .inl (goes n os W sent request)
    · have noTurn := W.noTurn sent (by simp)
      exact .inr ⟨W.succ noTurn, sent_stays (step_cases (run.took n)) noTurn
        (fun os heq => request ⟨os, heq⟩) sent⟩
  · rintro n ⟨W, sent⟩
    have responds : ({ reads := [.error .eagain], writes := [.error .eagain] } : Os β).Responds :=
      ⟨⟨_, List.mem_singleton.mpr rfl, by simp⟩, ⟨_, List.mem_singleton.mpr rfl, by simp⟩⟩
    obtain ⟨σ', out, took⟩ := (sane_at run n).exists_request responds sent
    exact ⟨_, σ', out, ⟨_, rfl⟩, took⟩
  · rintro n ⟨W, sent⟩ ⟨os, request⟩
    exact goes n os W sent request

theorem begun_leadsTo : LeadsTo (fun n => Waiting run r k n ∧ At (run.state n) .begun) fun n =>
    Waiting run r k n ∧ At (run.state n) .written := by
  refine LeadsTo.of_fair fair.time ?_ (fun n h => h.2) ?_
  · rintro n ⟨W, begun⟩
    have W' := W.succ (W.noTurn begun (by simp))
    have took := step_cases (run.took n)
    by_cases process : ∃ os, run.event n = .process os
    · obtain ⟨os, process⟩ := process
      rw [process] at took
      exact ((sane_at run n).process took begun).symm.imp (⟨W', ·⟩) (⟨W', ·⟩)
    · exact .inr ⟨W', begun_stays (sane_at run n) took (fun os heq => process ⟨os, heq⟩) begun⟩
  · rintro n ⟨W, begun⟩ ⟨os, process, overdue⟩
    have took := step_cases (run.took n)
    rw [process] at took
    exact ⟨W.succ (W.noTurn begun (by simp)), (sane_at run n).expires took begun overdue⟩

theorem written_leadsTo : LeadsTo (fun n => Waiting run r k n ∧ At (run.state n) .written)
    fun n => Waiting run r k n ∧ At (run.state n) .arrived := by
  have goes : ∀ n, Waiting run r k n ∧ At (run.state n) .written → run.event n = .deliver →
      Waiting run r k (n + 1) ∧ At (run.state (n + 1)) .arrived ∨
        (Waiting run r k (n + 1) ∧ At (run.state (n + 1)) .written) ∧
          (run.state (n + 1)).ahead < (run.state n).ahead := by
    rintro n ⟨W, written⟩ deliver
    have W' := W.succ (W.noTurn written (by simp))
    have took := step_cases (run.took n)
    rw [deliver] at took
    exact (written_delivered took written).imp (⟨W', ·⟩)
      fun ⟨written', less⟩ => ⟨⟨W', written'⟩, less⟩
  refine LeadsTo.of_variant (fun n => (run.state n).ahead) fair.deliveries ?_ ?_ goes
  · intro n h
    by_cases deliver : run.event n = .deliver
    · exact (goes n h deliver).imp id fun ⟨h', less⟩ => ⟨h', less.le⟩
    · obtain ⟨W, written⟩ := h
      obtain ⟨written', same⟩ := written_stays (step_cases (run.took n)) deliver written
      exact .inr ⟨⟨W.succ (W.noTurn written (by simp)), written'⟩, same.le⟩
  · rintro n ⟨-, r, written⟩
    obtain ⟨o, rest, stdout⟩ := List.exists_cons_of_ne_nil (List.ne_nil_of_mem written)
    cases o <;> exact ⟨.deliver, _, _, rfl, by simp only [step, stdout, serverStep]; rfl⟩

/-- A response that has arrived ends the wait, or leaves less room for another. -/
theorem arrived_leadsTo : LeadsTo (fun n => Waiting run r k n ∧ At (run.state n) .arrived)
    fun n => r < replied run n ∨ ∃ k' < k, Waiting run r k' n := by
  have goes : ∀ n, Waiting run r k n → (∃ now clock, run.event n = .turn now clock) →
      r < replied run (n + 1) ∨ ∃ k' < k, Waiting run r k' (n + 1) := by
    rintro n W ⟨now, clock, turn⟩
    have took := run.took n
    rw [turn] at took
    obtain ⟨p, waits⟩ := Option.ne_none_iff_exists'.mp W.waits
    have more := replied_succ run n
    have enough := W.replied
    rcases (sane_at run n).turn_waits took waits with answered | ⟨waits', less⟩
    · exact .inl (by omega)
    · exact .inr ⟨_, by rw [← W.room]; exact less, ⟨by omega, waits', rfl⟩⟩
  refine LeadsTo.of_fair fair.turns ?_ ?_ fun n h turn => goes n h.1 turn
  · rintro n ⟨W, arrived⟩
    by_cases turn : ∃ now clock, run.event n = .turn now clock
    · exact .inl (goes n W turn)
    · have noTurn : ∀ now clock, run.event n ≠ .turn now clock :=
        fun now clock heq => turn ⟨now, clock, heq⟩
      exact .inr ⟨W.succ noTurn, arrived_stays (step_cases (run.took n)) noTurn arrived⟩
  · rintro n ⟨W, arrived⟩
    have some : Server.next (run.state n).server ≠ none := next_ne_none W.waits arrived
    obtain ⟨σ', out, took⟩ := (sane_at run n).exists_turn some 0 0
    exact ⟨_, σ', out, ⟨0, 0, rfl⟩, took⟩

/-- **A callback that waits replies.** -/
theorem waiting_leadsTo :
    LeadsTo (fun n => r ≤ replied run n ∧ (run.state n).server.pending ≠ none)
      fun n => r < replied run n := by
  refine LeadsTo.of_rank (fun n => (run.state n).room) fun k => ?_
  -- from the response on
  have arrived : LeadsTo (fun n => Waiting run r k n ∧ At (run.state n) .arrived) fun n =>
      r < replied run n ∨
        (r ≤ replied run n ∧ (run.state n).server.pending ≠ none) ∧ (run.state n).room < k :=
    (arrived_leadsTo fair).trans (.of_imp fun n h => h.imp id
      fun ⟨k', less, W⟩ => ⟨⟨W.replied, W.waits⟩, by rw [W.room]; exact less⟩)
  have written := (written_leadsTo fair).trans arrived
  have begun := (begun_leadsTo fair).trans written
  have sent := (sent_leadsTo fair).trans (begun.or written)
  rintro n ⟨⟨enough, waits⟩, room⟩
  have W : Waiting run r k n := ⟨enough, waits, room⟩
  obtain ⟨p, hp⟩ := Option.ne_none_iff_exists'.mp waits
  obtain ⟨stage, there⟩ := (sane_at run n).served.aligned.exists_at hp
  cases stage with
  | sent => exact sent n ⟨W, there⟩
  | begun => exact begun n ⟨W, there⟩
  | written => exact written n ⟨W, there⟩
  | arrived => exact arrived n ⟨W, there⟩

/-- **A call that has come is taken**, once those before it have been. -/
theorem idle_leadsTo :
    LeadsTo (fun n => r ≤ replied run n ∧ (run.state n).server.pending = none ∧
        mailCalls (run.state n).server.mailbox ≠ [])
      fun n => r < replied run n ∨ r ≤ replied run n ∧ (run.state n).server.pending ≠ none := by
  have goes : ∀ n, (r ≤ replied run n ∧ (run.state n).server.pending = none ∧
        mailCalls (run.state n).server.mailbox ≠ []) →
      (∃ now clock, run.event n = .turn now clock) →
      (r < replied run (n + 1) ∨
          r ≤ replied run (n + 1) ∧ (run.state (n + 1)).server.pending ≠ none) ∨
        (r ≤ replied run (n + 1) ∧ (run.state (n + 1)).server.pending = none ∧
          mailCalls (run.state (n + 1)).server.mailbox ≠ []) ∧
          (run.state (n + 1)).before < (run.state n).before := by
    rintro n ⟨enough, idle, mail⟩ ⟨now, clock, turn⟩
    have took := run.took n
    rw [turn] at took
    have more := replied_succ run n
    rcases Sane.turn_idle took idle mail with answered | waits | ⟨idle', mail', less⟩
    · exact .inl (.inl (by omega))
    · exact .inl (.inr ⟨by omega, waits⟩)
    · exact .inr ⟨⟨by omega, idle', mail'⟩, less⟩
  refine LeadsTo.of_variant (fun n => (run.state n).before) fair.turns ?_ ?_ goes
  · intro n here
    by_cases turn : ∃ now clock, run.event n = .turn now clock
    · exact (goes n here turn).imp id fun ⟨here', less⟩ => ⟨here', less.le⟩
    · obtain ⟨enough, idle, mail⟩ := here
      have noTurn : ∀ now clock, run.event n ≠ .turn now clock :=
        fun now clock heq => turn ⟨now, clock, heq⟩
      obtain ⟨-, pending, -, more, mailbox⟩ := (step_cases (run.took n)).others noTurn
      refine .inr ⟨⟨?_, by rw [pending, idle], ?_⟩, ?_⟩
      · rw [replied_succ]
        exact enough.trans (Nat.le_add_right _ _)
      · rw [mailbox, mailCalls_append]
        exact fun none => mail (List.append_eq_nil_iff.mp none).1
      · obtain ⟨pid, call, mem⟩ := exists_call mail
        rw [before, mailbox, takeWhile_append_of_mem mem rfl]
        exact le_rfl
  · rintro n ⟨-, idle, mail⟩
    have some : Server.next (run.state n).server ≠ none := by
      obtain ⟨pid, call, mem⟩ := exists_call mail
      obtain ⟨m, rest, mailbox⟩ := List.exists_cons_of_ne_nil (List.ne_nil_of_mem mem)
      simp [Server.next, idle, mailbox]
    obtain ⟨σ', out, took⟩ := (sane_at run n).exists_turn some 0 0
    exact ⟨_, σ', out, ⟨0, 0, rfl⟩, took⟩

/-- While a call has had no reply, another reply comes. -/
theorem unanswered_leadsTo :
    LeadsTo (fun n => replied run n = r ∧
        r < (called (serverLabels (past run.out n))).length) fun n => r < replied run n := by
  rintro n ⟨rfl, unanswered⟩
  have waiting := waiting_leadsTo fair (r := replied run n)
  cases pending : (run.state n).server.pending with
  | some p => exact waiting n ⟨le_rfl, by simp [pending]⟩
  | none =>
    obtain ⟨done, served, calls, replied', serving⟩ := (sane_at run n).served.calls
    rw [pending] at serving
    cases serving
    have mail : mailCalls (run.state n).server.mailbox ≠ [] := by
      intro none
      rw [calls, none, List.append_nil, List.append_nil, replied'.length_eq] at unanswered
      exact absurd unanswered (Nat.lt_irrefl _)
    exact ((idle_leadsTo fair).trans_or waiting) n ⟨le_rfl, pending, mail⟩

omit fair in
theorem came_later {call : Pid × Call}
    (came : (called (serverLabels (past run.out n)))[k]? = some call) {m : ℕ} (le : n ≤ m) :
    (called (serverLabels (past run.out m)))[k]? = some call := by
  obtain ⟨more, hmore⟩ := past_prefix run.out le
  obtain ⟨lt, -⟩ := List.getElem?_eq_some_iff.mp came
  rw [← hmore, serverLabels_append, called_append, List.getElem?_append_left lt]
  exact came

omit fair in
/-- The `k`-th reply is that to the `k`-th call. -/
theorem reply_of_call {call : Pid × Call}
    (came : (called (serverLabels (past run.out n)))[k]? = some call) (enough : k < replied run n) :
    ∃ reply, (replies (serverLabels (past run.out n)))[k]? = some reply ∧
      reply.1 = call.1 ∧ reply.2.ResultOf call.2 := by
  obtain ⟨done, served, calls, answers, -⟩ := (sane_at run n).served.calls
  have here : k < done.length := enough.trans_eq answers.length_eq.symm
  have first : done[k] = call := by
    rw [calls, List.append_assoc, List.getElem?_append_left here] at came
    exact (List.getElem?_eq_some_iff.mp came).2
  have result := (List.forall₂_iff_get.mp answers).2 k here enough
  rw [List.get_eq_getElem, List.get_eq_getElem, first] at result
  exact ⟨_, List.getElem?_eq_getElem enough, result⟩

/-- **A fair run answers every call.** A call that has come, the `k`-th of all, gets the `k`-th
reply, then or later; it goes to the process that called and is of the kind that its callback
replies with. -/
theorem answered_of_fair {call : Pid × Call}
    (came : (called (serverLabels (past run.out n)))[k]? = some call) :
    ∃ m, n ≤ m ∧ ∃ reply, (replies (serverLabels (past run.out m)))[k]? = some reply ∧
      reply.1 = call.1 ∧ reply.2.ResultOf call.2 := by
  have leads : LeadsTo (fun m => n ≤ m) fun m => n ≤ m ∧ k < replied run m := by
    refine LeadsTo.of_rank (fun m => k + 1 - replied run m) ?_
    rintro left m ⟨le, rfl⟩
    by_cases enough : k < replied run m
    · exact ⟨m, le_rfl, .inl ⟨le, enough⟩⟩
    · -- the call has come and not been answered, so another reply comes
      obtain ⟨lt, -⟩ := List.getElem?_eq_some_iff.mp (came_later came le)
      obtain ⟨l, hl, more⟩ := unanswered_leadsTo fair m ⟨rfl, by omega⟩
      refine ⟨l, hl, .inr ⟨le.trans hl, ?_⟩⟩
      show k + 1 - replied run l < k + 1 - replied run m
      omega
  obtain ⟨m, -, le, enough⟩ := leads n le_rfl
  exact ⟨m, le, reply_of_call (came_later came le) enough⟩

end

end System

end CircuitsUart
