import CircuitsUart.Server.Timers

/-!
# Framing timeouts are not spurious

When `handle_info(:rx_framing_timed_out)` runs, it should be because the bytes that came
last left a frame incomplete and nothing has happened to that frame since. `Genuine` says
so of a history. The message carries nothing that would let the server tell, so it holds
only of runs in which no step disturbs a frame whose timer is running or whose message is
on its way; `punctual` is that condition, for each kind of turn the least it takes.

`Genuine` is a recursion over the labels and knows nothing of the server's state: it
remembers which timer the last received bytes started, forgets it when the frame is flushed
or re-framed, and compares. The state comes in with the invariant, `Pointing`: of all timers
that run or have their message in the mailbox there is at most one, and it is that one.

This is the other half of `Server.Timers`. There a frame that waits has a timer; here a timer
that expires has a frame.
-/

set_option autoImplicit false

namespace CircuitsUart.Server

open Lib

variable {β : Type}

/-! ## The property of a history -/

/-- The timer started at the most recent receipt of bytes, as long as nothing has been
flushed or re-framed since. -/
def armedBy (armed : Option Tref) : Label β → Option Tref
  | .received _ _ _ started => started
  | .dropped => none
  | _ => armed

/-- Each time `handle_info(:rx_framing_timed_out)` runs, the message is that timer's, the
timeout in force is positive and an incomplete frame is buffered. -/
def Genuine (armed : Option Tref) : List (Label β) → Prop
  | [] => True
  | .timedOut t framer timeout :: rest =>
    (armed = some t ∧ 0 < timeout ∧ framer.buffered ≠ []) ∧ Genuine armed rest
  | l :: rest => Genuine (armedBy armed l) rest

theorem genuine_append {armed : Option Tref} {h out : List (Label β)} :
    Genuine armed (h ++ out) ↔ Genuine armed h ∧ Genuine (h.foldl armedBy armed) out := by
  induction h generalizing armed with
  | nil => simp [Genuine]
  | cons l h ih => cases l <;> simp [Genuine, armedBy, ih, and_assoc]

/-- Labels that have nothing to do with frames. -/
def Label.isPlain : Label β → Bool
  | .received .. => false
  | .timedOut .. => false
  | .dropped => false
  | _ => true

theorem foldl_armedBy_of_plain {armed : Option Tref} {out : List (Label β)}
    (h : ∀ l ∈ out, l.isPlain) : out.foldl armedBy armed = armed := by
  induction out with
  | nil => rfl
  | cons l out ih =>
    have hl : armedBy armed l = armed := by
      have := h l (by simp)
      cases l <;> simp_all [armedBy, Label.isPlain]
    rw [List.foldl_cons, hl]
    exact ih fun l hl => h l (by simp [hl])

theorem genuine_of_plain {armed : Option Tref} {out : List (Label β)}
    (h : ∀ l ∈ out, l.isPlain) : Genuine armed out := by
  induction out generalizing armed with
  | nil => trivial
  | cons l out ih =>
    have hl := h l (by simp)
    have hrest := fun armed => @ih armed fun l hl => h l (by simp [hl])
    cases l <;> first | exact hrest _ | exact absurd hl (by simp [Label.isPlain])

theorem plain_reportMessages (s : State β) (notices : List (Notice β)) :
    ∀ l ∈ reportMessages s notices, l.isPlain := by
  intro l hl
  obtain ⟨dest, id, notice, -, rfl⟩ := mem_reportMessages hl
  rfl

/-! ## The condition -/

/-- The options leave the framer alone and a timeout in force. -/
def keepsFrame (s : State β) (opts : List UartOption) : Bool :=
  (keywordGet (fun o => o.framing?.map some) opts none).isNone &&
    decide (0 < keywordGet UartOption.rxFramingTimeout? opts s.rxFramingTimeout)

/-- No timer runs and none has its message waiting. -/
def quiet (timers : Timers) (w : List Tref) : Bool := timers.live.isEmpty && w.isEmpty

/-- The condition on a turn that leaves the messages of the timers `w` waiting:

* bytes are received, and the port closed, with no timeout message waiting;
* the framer is flushed or replaced, and the timeout taken away, with no timer about. -/
def turnPunctual (s : State β) (timers : Timers) (w : List Tref) : Taken β → Bool
  | .message (.call _ (.flush direction)) => decide (direction = .transmit) || quiet timers w
  | .message (.call _ (.configure opts)) => keepsFrame s opts || quiet timers w
  | .message (.notif (.data _)) => w.isEmpty
  | .message _ => true
  | .response p r =>
    match p.cont, r with
    | .opening _ opts, _ => keepsFrame s opts || quiet timers w
    | .closing, _ => w.isEmpty
    | .reading _ _, .data (_ :: _) => w.isEmpty
    | _, _ => true

/-- The condition on a step. -/
def punctual (σ : Server β) : Event β → Bool
  | .turn _ _ =>
    match next σ with
    | some (taken, rest) => turnPunctual σ.state σ.timers (waiting rest) taken
    | none => true
  | _ => true

/-! ## The invariant -/

/-- Every timer that runs or has its message waiting is the one the bytes buffered are
waiting for; one that runs is the one the server would cancel. -/
structure Pointing (armed : Option Tref) (s : State β) (timers : Timers) (w : List Tref) : Prop where
  armed : ∀ t ∈ timers.live ++ w, armed = some t
  frame : timers.live ++ w ≠ [] → 0 < s.rxFramingTimeout ∧ s.framer.buffered ≠ []
  tref : ∀ t ∈ timers.live, s.rxFramingTref = some t

theorem Pointing.of_quiet {armed : Option Tref} {s : State β} {timers : Timers} {w : List Tref}
    (h : quiet timers w = true) : Pointing armed s timers w := by
  obtain ⟨hlive, rfl⟩ : timers.live = [] ∧ w = [] := by simpa [quiet] using h
  exact ⟨by simp [hlive], by simp [hlive], by simp [hlive]⟩

/-- `handle_framing_timer/2` cancels the one timer there is and starts at most one. -/
theorem pointing_handleFramingTimer {s : State β} {timers : Timers} {rc : Rc}
    (hrc : rc = .inFrame ↔ s.framer.buffered ≠ [])
    (htref : ∀ t ∈ timers.live, s.rxFramingTref = some t)
    (hpos : timers.live ≠ [] → 0 < s.rxFramingTimeout) :
    Pointing (handleFramingTimer s timers rc).started (handleFramingTimer s timers rc).state
      (handleFramingTimer s timers rc).timers [] := by
  have hnone : s.rxFramingTref = none → timers.live = [] := fun hs =>
    List.eq_nil_iff_forall_not_mem.mpr fun t ht => absurd (hs.symm.trans (htref t ht)) (by simp)
  have hsome : ∀ tref, s.rxFramingTref = some tref → (timers.cancel tref).live = [] := by
    intro tref hs
    refine List.eq_nil_iff_forall_not_mem.mpr fun t ht => ?_
    obtain ⟨hl, hne⟩ := mem_cancel.mp ht
    exact hne (by simpa [hs] using (htref t hl).symm)
  cases rc with
  | ok =>
    cases hs : s.rxFramingTref with
    | none =>
      simp only [handleFramingTimer, hs]
      exact .of_quiet (by simp [quiet, hnone hs])
    | some tref =>
      simp only [handleFramingTimer, hs]
      exact .of_quiet (by simp [quiet, hsome tref hs])
  | inFrame =>
    unfold handleFramingTimer
    dsimp only
    split
    · next hlt =>
      cases hs : s.rxFramingTref with
      | none =>
        have hl := hnone hs
        exact ⟨by simp [Timers.sendAfter, hl], fun _ => ⟨hlt, hrc.mp rfl⟩,
          by simp [Timers.sendAfter, hl]⟩
      | some tref =>
        have hl := hsome tref hs
        exact ⟨by simp [Timers.sendAfter, hl], fun _ => ⟨hlt, hrc.mp rfl⟩,
          by simp [Timers.sendAfter, hl]⟩
    · next hle => exact .of_quiet (by simp [quiet, show timers.live = [] from
        by_contra fun hne => hle (hpos hne)])

/-- Labels that have nothing to do with frames, and a state whose frame is the same. -/
theorem Pointing.of_plain {armed : Option Tref} {s s' : State β} {timers : Timers} {w : List Tref}
    {out : List (Label β)} (h : Pointing armed s timers w) (hout : ∀ l ∈ out, l.isPlain)
    (htimeout : s'.rxFramingTimeout = s.rxFramingTimeout)
    (hbuf : s'.framer.buffered = s.framer.buffered) (htref : s'.rxFramingTref = s.rxFramingTref) :
    Pointing (out.foldl armedBy armed) s' timers w := by
  rw [foldl_armedBy_of_plain hout]
  exact ⟨h.armed, by rw [htimeout, hbuf]; exact h.frame, by rw [htref]; exact h.tref⟩

theorem Pointing.of_options {armed : Option Tref} {s s' : State β} {timers : Timers}
    {w : List Tref} {opts : List UartOption} {out : List (Label β)} (h : Pointing armed s timers w)
    (hkeep : (keepsFrame s opts || quiet timers w) = true) (hout : ∀ l ∈ out, l.isPlain)
    (taken : OptionsTaken opts s s') :
    Pointing ((reframed opts ++ out).foldl armedBy armed) s' timers w := by
  rcases Bool.or_eq_true _ _ |>.mp hkeep with hk | hq
  · obtain ⟨hnone, hlt⟩ : keywordGet (fun o => o.framing?.map some) opts none = none ∧
        0 < keywordGet UartOption.rxFramingTimeout? opts s.rxFramingTimeout := by
      simpa [keepsFrame] using hk
    have hre : reframed opts = ([] : List (Label β)) := by simp [reframed, hnone]
    rw [hre, List.nil_append, foldl_armedBy_of_plain hout]
    refine ⟨h.armed, fun hne => ⟨taken.timeout ▸ hlt, ?_⟩, by rw [taken.tref]; exact h.tref⟩
    rw [taken.buffered, if_pos hnone]
    exact (h.frame hne).2
  · exact .of_quiet hq

variable [Octet β]

/-- Received bytes leave at most the timer they start. -/
theorem pointing_afterData {armed : Option Tref} {s s' : State β} {timers : Timers} {data : List β}
    {rc : Rc} {ms : List (Message β)} {framer : Framer β} {out : List (Label β)}
    (hp : Pointing armed s timers [])
    (framed : s.framer.removeFraming data = some (rc, ms, framer)) (hout : ∀ l ∈ out, l.isPlain)
    (htimeout : s'.rxFramingTimeout = (afterData s timers framer rc).state.rxFramingTimeout)
    (hbuf : s'.framer.buffered = (afterData s timers framer rc).state.framer.buffered)
    (htref : s'.rxFramingTref = (afterData s timers framer rc).state.rxFramingTref) :
    Pointing ((.received data rc ms (afterData s timers framer rc).started :: out).foldl
      armedBy armed) s' (afterData s timers framer rc).timers [] := by
  rw [List.foldl_cons]
  refine Pointing.of_plain ?_ hout htimeout hbuf htref
  exact pointing_handleFramingTimer (Framer.removeFraming_rc framed) hp.tref
    (fun hne => (hp.frame (by simpa using hne)).1)

omit [Octet β] in
/-- The timer that is handled was the only one about. -/
theorem Pointing.timedOut {armed : Option Tref} {s : State β} {timers : Timers} {t : Tref}
    {w : List Tref} (hp : Pointing armed s timers (t :: w)) (hf : Fresh timers (t :: w)) :
    armed = some t ∧ timers.live = [] ∧ w = [] := by
  have ht : armed = some t := hp.armed t (by simp)
  have hall : ∀ t' ∈ timers.live ++ w, False := by
    intro t' ht'
    have hsame : t' = t := by
      have := hp.armed t' (by simp at ht' ⊢; tauto)
      simpa [ht] using this.symm
    have hnodup : (t :: (timers.live ++ w)).Nodup :=
      (List.Perm.nodup_iff List.perm_middle).mp hf.nodup
    exact (List.nodup_cons.mp hnodup).1 (hsame ▸ ht')
  exact ⟨ht, List.append_eq_nil_iff.mp (List.eq_nil_iff_forall_not_mem.mpr hall)⟩

omit [Octet β] in
/-- Closing drops the frame, so the one timer that may run is cancelled. -/
theorem Pointing.closing {armed : Option Tref} {s : State β} {timers : Timers}
    (hp : Pointing armed s timers []) (pid : Pid) (r : Response β) :
    quiet (resumeClosing s timers pid r).timers [] = true := by
  let s' : State β :=
    { s with name := .closed, framer := s.framer.flush .both, queuedMessages := [] }
  have hbuf : s'.framer.buffered = [] := by simp [s', Framer.buffered_flush]
  have hpt : Pointing _ (handleFramingTimer s' timers .ok).state
      (handleFramingTimer s' timers .ok).timers [] :=
    pointing_handleFramingTimer (by simp [hbuf]) hp.tref fun hne =>
      (hp.frame (List.append_ne_nil_of_left_ne_nil hne _)).1
  have hlive : (handleFramingTimer s' timers .ok).timers.live = [] := by
    by_contra hne
    exact (hpt.frame (List.append_ne_nil_of_left_ne_nil hne _)).2 (by simp [hbuf])
  have hq : quiet (handleFramingTimer s' timers .ok).timers [] = true := by simp [quiet, hlive]
  exact hq

/-- **One turn** that meets the condition keeps the invariant, and a timeout it handles is
genuine. -/
theorem Turn.pointing {armed : Option Tref} {s : State β} {timers : Timers} {taken : Taken β}
    {ran : Ran β} {w : List Tref} (h : Turn s timers taken ran)
    (hco : ∀ p r, taken = .response p r → Coherent s p) (hf : Fresh timers (taken.trefs ++ w))
    (hg : turnPunctual s timers w taken = true)
    (hp : Pointing armed s timers (taken.trefs ++ w)) :
    Pointing (ran.out.foldl armedBy armed) ran.state ran.timers w ∧ Genuine armed ran.out := by
  cases h with
  | @ask _ _ _ command _ asks =>
    have hplain : ∀ l ∈ [Label.asked (β := β) command], l.isPlain := by simp [Label.isPlain]
    exact ⟨hp.of_plain hplain rfl rfl rfl, genuine_of_plain hplain⟩
  | readQueued _ => exact ⟨hp.of_plain (by simp [replyWith, Label.isPlain]) rfl rfl rfl, trivial⟩
  | @configure _ opts =>
    have hplain : ∀ l ∈ [Label.asked (β := β) (.configure opts)], l.isPlain := by
      simp [Label.isPlain]
    refine ⟨Pointing.of_options hp hg hplain (handleConfigure_options _ _ _ _), ?_⟩
    simp only [handleConfigure, callPort, reframed]
    split <;> trivial
  | @flush _ direction =>
    refine ⟨?_, by simp only [handleFlush, callPort]; split <;> trivial⟩
    by_cases hd : direction = .transmit
    · subst hd
      exact hp.of_plain (by simp [handleFlush, callPort, Label.isPlain]) rfl
        (by simp [handleFlush, callPort, Framer.buffered_flush]) rfl
    · have hq : quiet timers w = true := by simpa [turnPunctual, hd] using hg
      exact .of_quiet hq
  | control => exact ⟨hp.of_plain (by simp [replyWith, Label.isPlain]) rfl rfl rfl, trivial⟩
  | notified framed =>
    obtain rfl : w = [] := by simpa [turnPunctual] using hg
    exact ⟨pointing_afterData hp framed (plain_reportMessages _ _) rfl rfl rfl,
      (genuine_of_plain (plain_reportMessages _ _) : Genuine _ (reportMessages _ _))⟩
  | @failed reason =>
    have hplain := plain_reportMessages s [Notice.error reason]
    exact ⟨hp.of_plain hplain rfl rfl rfl, genuine_of_plain hplain⟩
  | @timedOut t =>
    obtain ⟨ht, hlive, rfl⟩ := Pointing.timedOut (w := w) hp hf
    have hframe := hp.frame (by simp [Taken.trefs])
    have hplain : ∀ s' : State β, ∀ ms : List (Message β),
        ∀ l ∈ (notifyTimedoutMessages s' ms).2, l.isPlain := by
      intro s' ms l hl
      unfold notifyTimedoutMessages at hl
      split at hl
      · exact plain_reportMessages _ _ l hl
      · exact absurd hl (by simp)
      · exact absurd hl (by simp)
    refine ⟨.of_quiet ?_, ⟨ht, hframe.1, hframe.2⟩, genuine_of_plain (hplain _ _)⟩
    simp [quiet, handleTimedOut, hlive]
  | opened cont =>
    simp only [turnPunctual, cont] at hg
    have options := resumeOpening_options s timers
    refine ⟨Pointing.of_options hp hg (by simp [Label.isPlain]) (options _ _ _ _), ?_⟩
    simp only [resumeOpening, replyWith, reframed]
    split <;> trivial
  | closed cont =>
    obtain rfl : w = [] := by simpa [turnPunctual, cont] using hg
    exact ⟨.of_quiet (hp.closing _ _), trivial⟩
  | answered _ _ => exact ⟨hp.of_plain (by simp [replyWith, Label.isPlain]) rfl rfl rfl, trivial⟩
  | wrote cont =>
    have hco' := hco _ _ rfl
    simp only [Coherent, cont] at hco'
    subst hco'
    exact ⟨hp.of_plain (by simp [replyWith, Label.isPlain]) rfl rfl rfl, trivial⟩
  | @readData _ _ _ data _ _ _ _ cont ne framed =>
    cases data with
    | nil => exact absurd rfl ne
    | cons b bs =>
      obtain rfl : w = [] := by simpa [turnPunctual, cont] using hg
      exact ⟨pointing_afterData hp framed (by simp [Label.isPlain]) rfl rfl rfl, trivial⟩
  | @readMore _ _ _ _ _ data _ _ cont ne framed =>
    cases data with
    | nil => exact absurd rfl ne
    | cons b bs =>
      obtain rfl : w = [] := by simpa [turnPunctual, cont] using hg
      unfold handleRead
      split
      · exact ⟨pointing_afterData hp framed (by simp [Label.isPlain]) rfl rfl rfl, trivial⟩
      · exact ⟨pointing_afterData hp framed (by simp [Label.isPlain]) rfl rfl rfl, trivial⟩

/-! ## No empty partial -/

/-- `{:partial, <<>>}` is neither queued nor handed to the application. -/
def NoEmptyPartial (queue : List (Message β)) (out : List (Label β)) : Prop :=
  .part [] ∉ queue ∧ ∀ l ∈ out, .part [] ∉ l.delivered

omit [Octet β] in
theorem delivered_reportMessages {s : State β} {ms : List (Message β)} (h : .part [] ∉ ms) :
    ∀ l ∈ reportMessages s (ms.map .message), .part [] ∉ l.delivered := by
  intro l hl hmem
  obtain ⟨dest, id, notice, hn, rfl⟩ := mem_reportMessages hl
  obtain ⟨m, hm, rfl⟩ := List.mem_map.mp hn
  obtain rfl := List.mem_singleton.mp hmem
  exact h hm

omit [Octet β] in
theorem NoEmptyPartial.cons {queue : List (Message β)} {out : List (Label β)} {l : Label β}
    (h : NoEmptyPartial queue out) (nothing : l.delivered = []) :
    NoEmptyPartial queue (l :: out) := by
  refine ⟨h.1, List.forall_mem_cons.mpr ⟨?_, h.2⟩⟩
  rw [nothing]
  exact List.not_mem_nil

omit [Octet β] in
/-- The first message is the reply, and the others are queued. -/
theorem noEmptyPartial_first {m : Message β} {rest : List (Message β)}
    (h : .part [] ∉ m :: rest) (pid : Pid) :
    NoEmptyPartial rest [.replied pid (.message m)] := by
  refine ⟨fun hm => h (List.mem_cons_of_mem _ hm), ?_⟩
  intro l hl hmem
  obtain rfl := List.mem_singleton.mp hl
  obtain rfl := List.mem_singleton.mp hmem
  exact h List.mem_cons_self

/-- A turn hands over what the framer reports; an empty partial can only come from a
timeout with nothing buffered. -/
theorem Turn.noEmptyPartial {s : State β} {timers : Timers} {taken : Taken β} {ran : Ran β}
    (h : Turn s timers taken ran) (hframe : taken.trefs ≠ [] → s.framer.buffered ≠ [])
    (hq : .part [] ∉ s.queuedMessages) : NoEmptyPartial ran.state.queuedMessages ran.out := by
  cases h with
  | readQueued queue =>
    rw [queue] at hq
    exact noEmptyPartial_first hq _
  | notified framed =>
    refine NoEmptyPartial.cons ⟨by simpa [afterData] using hq, ?_⟩ rfl
    exact delivered_reportMessages (Framer.removeFraming_part framed)
  | failed =>
    refine ⟨hq, ?_⟩
    intro l hl
    obtain ⟨dest, id, notice, hn, rfl⟩ := mem_reportMessages hl
    obtain rfl := List.mem_singleton.mp hn
    simp [Label.delivered]
  | timedOut =>
    have hpart := Framer.frameTimeout_part (hframe (by simp [Taken.trefs]))
    refine NoEmptyPartial.cons ⟨?_, ?_⟩ rfl
    · simp only [handleTimedOut, notifyTimedoutMessages_state]
      split
      · simpa using hq
      · simp [hq, hpart]
    · intro l hl
      unfold notifyTimedoutMessages at hl
      split at hl
      · exact delivered_reportMessages hpart l hl
      · exact absurd hl (by simp)
      · exact absurd hl (by simp)
  | closed _ =>
    refine ⟨by simp [resumeClosing, replyWith], ?_⟩
    simp [resumeClosing, replyWith, Label.delivered]
  | readData cont ne framed =>
    exact (noEmptyPartial_first (Framer.removeFraming_part framed) _).cons rfl
  | readMore cont ne framed =>
    unfold handleRead
    split
    · next m rest hqueue =>
      simp only [afterData, handleFramingTimer_queuedMessages] at hqueue
      rw [hqueue] at hq
      exact (noEmptyPartial_first hq _).cons rfl
    · refine ⟨by simpa [callPort, afterData] using hq, ?_⟩
      simp [callPort, Label.delivered]
  | configure =>
    rw [NoEmptyPartial, (handleConfigure_options _ _ _ _).queue]
    refine ⟨hq, ?_⟩
    simp only [handleConfigure, callPort, reframed]
    split <;> simp [Label.delivered]
  | opened =>
    rw [NoEmptyPartial, (resumeOpening_options _ _ _ _ _ _).queue]
    refine ⟨hq, ?_⟩
    simp only [resumeOpening, replyWith, reframed]
    split <;> simp [Label.delivered]
  | flush =>
    refine ⟨hq, ?_⟩
    simp only [handleFlush, callPort]
    split <;> simp [Label.delivered]
  | @answered _ _ reply _ not_message =>
    refine ⟨hq, ?_⟩
    intro l hl
    obtain rfl := List.mem_singleton.mp hl
    cases reply with
    | message m => exact absurd rfl (not_message m)
    | _ => simp [Label.delivered]
  | ask | control | wrote =>
    exact ⟨hq, by simp [callPort, replyWith, Label.delivered]⟩

/-! ## Whole runs -/

/-- What holds of every history and state that punctual steps lead to. -/
structure Timely (h : List (Label β)) (σ : Server β) : Prop where
  sound : Sound σ
  pointing : Pointing (h.foldl armedBy none) σ.state σ.timers (waiting σ.mailbox)
  genuine : Genuine none h
  partials : NoEmptyPartial σ.state.queuedMessages h

theorem step_timely {h out : List (Label β)} {σ σ' : Server β} {e : Event β} (ht : Timely h σ)
    (hg : punctual σ e = true) (hs : step σ e = some (σ', out)) : Timely (h ++ out) σ' := by
  have hsound := step_sound ht.sound hs
  rcases step_cases hs with ⟨m, rfl, hm, rfl, rfl⟩ | ⟨t, rfl, hlive, rfl, rfl⟩ |
    ⟨now, clock, taken, rest, ran, rfl, hnext, hrun, rfl, rfl⟩
  · have hw : waiting (σ.mailbox ++ [m]) = waiting σ.mailbox := by
      rw [waiting_append]
      cases m <;> simp_all [waiting]
    refine ⟨hsound, ?_, genuine_append.mpr ⟨ht.genuine, trivial⟩, ht.partials.1, ?_⟩
    · rw [List.foldl_append, hw]
      exact ht.pointing
    · simpa [or_imp, forall_and, Label.delivered] using ht.partials.2
  · refine ⟨hsound, ?_, genuine_append.mpr ⟨ht.genuine, trivial⟩, ht.partials.1, ?_⟩
    · -- The timer goes on to the mailbox and still points at the frame.
      have hmem : ∀ t', t' ∈ (σ.timers.cancel t).live ++ waiting (σ.mailbox ++ [.rxFramingTimedOut t]) →
          t' ∈ σ.timers.live ++ waiting σ.mailbox := by
        intro t' ht'
        simp only [waiting_append, List.mem_append, mem_cancel, waiting, List.mem_singleton] at ht' ⊢
        rcases ht' with ht' | ht' | rfl
        · exact .inl ht'.1
        · exact .inr ht'
        · exact .inl hlive
      rw [List.foldl_append]
      refine ⟨fun t' ht' => ht.pointing.armed t' (hmem t' ht'), fun _ => ht.pointing.frame ?_,
        fun t' ht' => ht.pointing.tref t' (mem_cancel.mp ht').1⟩
      exact List.append_ne_nil_of_left_ne_nil (List.ne_nil_of_mem hlive) _
    · simpa [or_imp, forall_and, Label.delivered] using ht.partials.2
  · have hw := waiting_next hnext
    have hturn := turn_of_run hrun
    have hpt := ht.pointing
    rw [hw] at hpt
    have hco : ∀ p r, taken = .response p r → Coherent σ.state p := by
      intro p r heq
      subst heq
      rcases next_eq_some hnext with ⟨m, hm, -⟩ | ⟨p', r', _, _, hpr, hpend, -⟩
      · exact absurd hm (by simp)
      · obtain ⟨rfl, rfl⟩ := by simpa using hpr
        exact ht.sound.1 p hpend
    have hgt : turnPunctual σ.state σ.timers (waiting rest) taken = true := by
      simpa [punctual, hnext] using hg
    obtain ⟨hpoint, hgen⟩ := hturn.pointing hco (hw ▸ ht.sound.2) hgt hpt
    have hparts := hturn.noEmptyPartial
      (fun hne => (hpt.frame (by simp [hne])).2) ht.partials.1
    refine ⟨hsound, ?_, genuine_append.mpr ⟨ht.genuine, hgen⟩, hparts.1, ?_⟩
    · rw [List.foldl_append]
      exact hpoint
    · intro l hl
      rcases List.mem_append.mp hl with hl | hl
      · exact ht.partials.2 l hl
      · exact hparts.2 l hl

/-- **In every run of punctual steps, framing timeouts are genuine**, and the application
never gets an empty partial. -/
theorem punctual_genuine {h : List (Label β)} {σ : Server β}
    (r : Reach step (fun _ σ e => punctual σ e = true) {} h σ) :
    Genuine none h ∧ .part [] ∉ h.flatMap Label.delivered := by
  have hinit : Timely [] ({} : Server β) :=
    ⟨sound_init, .of_quiet rfl, trivial, by simp, by simp⟩
  have hkeep : ∀ h (σ : Server β) e σ' out, Timely h σ → punctual σ e = true →
      step σ e = some (σ', out) → Timely (h ++ out) σ' :=
    fun h σ e σ' out ht hg hs => step_timely ht hg hs
  have ht : Timely h σ := Reach.invariant hinit hkeep r
  refine ⟨ht.genuine, fun hmem => ?_⟩
  obtain ⟨l, hl, hpart⟩ := List.mem_flatMap.mp hmem
  exact ht.partials.2 l hl hpart

/-- A line begun, and left alone until its timer expires. -/
def abandonedLine : List (Event UInt8) :=
  [.arrive (.call 0 (.open [] [.framing (.module .line), .rxFramingTimeout 100])), .turn 0 0,
    .arrive (.resp .ok), .turn 0 0,
    .arrive (.notif (.data [65])), .turn 0 0, .expire 0, .turn 0 0]

theorem punctual_genuine_abandonedLine :
    (exec step {} abandonedLine).isSome ∧
      ∀ σ h, exec step {} abandonedLine = some (σ, h) →
        Genuine none h ∧ .part [] ∉ h.flatMap Label.delivered := by
  refine ⟨rfl, fun σ h he => punctual_genuine (Reach.of_permitted .start rfl he)⟩

/-- The same line, flushed by its reader before the timer expires. -/
def flushedLine : List (Event UInt8) :=
  [.arrive (.call 0 (.open [] [.framing (.module .line), .rxFramingTimeout 100])), .turn 0 0,
    .arrive (.resp .ok), .turn 0 0,
    .arrive (.notif (.data [65])), .turn 0 0,
    .arrive (.call 0 (.flush .receive)), .turn 0 0, .arrive (.resp .ok), .turn 0 0,
    .expire 0, .turn 0 0]

/-- The timeout finds nothing, and the application is sent `{:partial, <<>>}`. -/
theorem not_genuine_flushedLine :
    ∃ h σ, Reach step anyStep ({} : Server UInt8) h σ ∧ ¬ Genuine none h ∧
      .part [] ∈ h.flatMap Label.delivered := by
  refine ⟨_, _, Reach.of_exec (rfl : exec step {} flushedLine = some (_, _)), ?_, by decide⟩
  intro h
  exact h.1.2.2 rfl

end CircuitsUart.Server
