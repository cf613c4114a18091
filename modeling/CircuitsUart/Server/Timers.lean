import CircuitsUart.Server.System

/-!
# Incomplete frames and the framing timer

An incomplete frame must not wait forever: while one is buffered and a timeout is set, a
timer has to be running or its message has to be on the way, and the reference the server
keeps must be that timer's. `Guarded` is this property of a state.

The code does not keep it. `handle_framing_timer/2` stores the reference of the timer it
has just cancelled, and raising the timeout over buffered bytes starts no timer. `Guards`
is the exact condition on a step: `everyState_guarded_iff` says that the property holds
throughout a run exactly when every step of the run meets it.
-/

set_option autoImplicit false

namespace CircuitsUart.Server

open Lib

variable {β : Type}

/-- The timers whose message is in the mailbox. -/
def waiting : List (Msg β) → List Tref
  | [] => []
  | .rxFramingTimedOut t :: rest => t :: waiting rest
  | _ :: rest => waiting rest

theorem waiting_append (a b : List (Msg β)) : waiting (a ++ b) = waiting a ++ waiting b := by
  induction a with
  | nil => rfl
  | cons m a ih => cases m <;> simp [waiting, ih]

/-- The timer whose message the turn takes. -/
def Taken.trefs : Taken β → List Tref
  | .message (.rxFramingTimedOut t) => [t]
  | _ => []

theorem waiting_next {σ : Server β} {taken : Taken β} {rest : List (Msg β)}
    (h : next σ = some (taken, rest)) : waiting σ.mailbox = taken.trefs ++ waiting rest := by
  rcases next_eq_some h with ⟨m, rfl, -, hm⟩ | ⟨p, r, before, after, rfl, -, hm, rfl, -⟩
  · rw [hm]
    cases m <;> rfl
  · rw [hm, waiting_append, waiting_append]
    rfl

/-! ## References are used once -/

/-- The running timers and those whose message waits (`w`) are different timers, and older
than the next one. -/
structure Fresh (timers : Timers) (w : List Tref) : Prop where
  nodup : (timers.live ++ w).Nodup
  lt_next : ∀ t ∈ timers.live ++ w, t < timers.next

theorem mem_cancel {timers : Timers} {t tref : Tref} :
    t ∈ (timers.cancel tref).live ↔ t ∈ timers.live ∧ t ≠ tref := by
  simp [Timers.cancel]

theorem Fresh.cancel {timers : Timers} {w : List Tref} (h : Fresh timers w) (tref : Tref) :
    Fresh (timers.cancel tref) w where
  nodup := h.nodup.sublist (List.filter_sublist.append_right w)
  lt_next t ht := by
    refine h.lt_next t ?_
    rw [List.mem_append] at ht ⊢
    exact ht.imp (fun h => (mem_cancel.mp h).1) id

theorem Fresh.sendAfter {timers : Timers} {w : List Tref} (h : Fresh timers w) :
    Fresh timers.sendAfter w where
  nodup := by
    have hnew : timers.next ∉ timers.live ++ w := fun hm => Nat.lt_irrefl _ (h.lt_next _ hm)
    have hcons : (timers.next :: (timers.live ++ w)).Nodup := List.nodup_cons.mpr ⟨hnew, h.nodup⟩
    refine (List.Perm.nodup_iff ?_).mpr hcons
    simp only [Timers.sendAfter, List.append_assoc, List.singleton_append]
    exact List.perm_middle
  lt_next t ht := by
    simp only [Timers.sendAfter, List.mem_append, List.mem_singleton] at ht ⊢
    rcases ht with (ht | rfl) | ht
    · exact Nat.lt_succ_of_lt (h.lt_next t (by simp [ht]))
    · exact Nat.lt_succ_self _
    · exact Nat.lt_succ_of_lt (h.lt_next t (by simp [ht]))

theorem Fresh.tail {timers : Timers} {w w' : List Tref} (h : Fresh timers (w ++ w')) :
    Fresh timers w' where
  nodup := h.nodup.sublist ((List.sublist_append_right w w').append_left timers.live)
  lt_next t ht := h.lt_next t (by simp at ht ⊢; tauto)

theorem Fresh.handleFramingTimer {timers : Timers} {w : List Tref} (h : Fresh timers w)
    (s : State β) (rc : Rc) : Fresh (Server.handleFramingTimer s timers rc).timers w := by
  unfold Server.handleFramingTimer
  cases rc with
  | ok =>
    cases s.rxFramingTref with
    | none => exact h
    | some tref => exact h.cancel tref
  | inFrame =>
    dsimp only
    split
    · cases s.rxFramingTref with
      | none => exact h.sendAfter
      | some tref => exact (h.cancel tref).sendAfter
    · exact h

section turn

variable [Octet β]

theorem Turn.fresh {s : State β} {timers : Timers} {taken : Taken β} {ran : Ran β} {w : List Tref}
    (h : Turn s timers taken ran) (hf : Fresh timers w) : Fresh ran.timers w := by
  cases h with
  | notified | readData => exact hf.handleFramingTimer _ _
  | closed => exact hf.handleFramingTimer _ _
  | readMore =>
    unfold handleRead
    split
    · exact hf.handleFramingTimer _ _
    · exact hf.handleFramingTimer _ _
  | _ => exact hf

/-- **Timers are never mixed up.** -/
theorem step_fresh {σ σ' : Server β} {e : Event β} {out : List (Label β)}
    (h : step σ e = some (σ', out)) (hf : Fresh σ.timers (waiting σ.mailbox)) :
    Fresh σ'.timers (waiting σ'.mailbox) := by
  rcases step_cases h with ⟨m, rfl, hm, rfl, rfl⟩ | ⟨t, rfl, hlive, rfl, rfl⟩ |
    ⟨now, clock, taken, rest, ran, rfl, hnext, hrun, rfl, rfl⟩
  · have : waiting [m] = [] := by cases m <;> simp_all [waiting]
    rw [waiting_append, this, List.append_nil]
    exact hf
  · -- The reference moves from the running timers to the mailbox.
    rw [waiting_append]
    refine ⟨?_, ?_⟩
    · have hc := (hf.cancel t).nodup
      have hnot : t ∉ (σ.timers.cancel t).live ++ waiting σ.mailbox := by
        rw [List.mem_append, mem_cancel]
        intro ht
        rcases ht with ⟨-, hne⟩ | hw
        · exact hne rfl
        · exact (List.disjoint_of_nodup_append hf.nodup) hlive hw
      refine (List.Perm.nodup_iff ?_).mpr (List.nodup_cons.mpr ⟨hnot, hc⟩)
      rw [← List.append_assoc]
      exact List.perm_append_singleton _ _
    · intro t' ht'
      refine hf.lt_next t' ?_
      simp only [List.mem_append, mem_cancel, waiting, List.mem_singleton] at ht' ⊢
      rcases ht' with ht' | ht' | rfl
      · exact .inl ht'.1
      · exact .inr ht'
      · exact .inl hlive
  · rw [waiting_next hnext] at hf
    exact (turn_of_run hrun).fresh hf.tail

end turn

/-! ## The property, and what a step must not do -/

/-- A buffered frame is waited for, by the timer the server knows or by a message on its
way, and the server knows no timer that is neither running nor on its way. -/
structure Guarded (s : State β) (timers : Timers) (w : List Tref) : Prop where
  frame : 0 < s.rxFramingTimeout → s.framer.buffered ≠ [] →
    (∃ t, s.rxFramingTref = some t ∧ t ∈ timers.live) ∨ w ≠ []
  tref : ∀ t, s.rxFramingTref = some t → t ∈ timers.live ∨ t ∈ w

/-- The timer the server knows is not running. -/
def TimerIdle (s : State β) (timers : Timers) : Prop :=
  ∀ t, s.rxFramingTref = some t → t ∉ timers.live

/-- The options leave the framer alone and raise the timeout from none to some. -/
def Raises (s : State β) (opts : List UartOption) : Prop :=
  keywordGet (fun o => o.framing?.map some) opts none = none ∧ s.rxFramingTimeout ≤ 0 ∧
    0 < keywordGet UartOption.rxFramingTimeout? opts s.rxFramingTimeout

/-- A raised timeout finds nothing buffered, or a timer. -/
def RaiseGuarded (s : State β) (timers : Timers) (w : List Tref) (opts : List UartOption) : Prop :=
  Raises s opts → s.framer.buffered ≠ [] →
    (∃ t, s.rxFramingTref = some t ∧ t ∈ timers.live) ∨ w ≠ []

variable [Octet β]

/-- Data that completes its frames finds the timer not running. -/
def CompletesIdle (s : State β) (timers : Timers) (data : List β) : Prop :=
  ∀ rc ms framer, s.framer.removeFraming data = some (rc, ms, framer) → framer.buffered = [] →
    TimerIdle s timers

/-- The condition on a turn, from what it takes and the state it finds. -/
def TurnGuards (s : State β) (timers : Timers) (w : List Tref) : Taken β → Prop
  | .message (.call _ (.configure opts)) => RaiseGuarded s timers w opts
  | .message (.notif (.data data)) => CompletesIdle s timers data
  | .message _ => True
  | .response p r =>
    match p.cont, r with
    | .opening _ opts, _ => RaiseGuarded s timers w opts
    | .closing, _ => TimerIdle s timers
    | .reading _ _, .data (b :: bs) => CompletesIdle s timers (b :: bs)
    | _, _ => True

/-- The condition on a step: arrivals and expiries are free. -/
def Guards (σ : Server β) : Event β → Prop
  | .turn _ _ => ∀ taken rest, next σ = some (taken, rest) →
    TurnGuards σ.state σ.timers (waiting rest) taken
  | _ => True

/-! ## One step -/

omit [Octet β] in
/-- `handle_framing_timer/2` leaves a guarded state, except that it keeps the reference of
a timer it has cancelled. -/
theorem guarded_handleFramingTimer {s : State β} {timers : Timers} {w : List Tref} {rc : Rc}
    (hrc : rc = .inFrame ↔ s.framer.buffered ≠ []) (hf : Fresh timers w)
    (htref : ∀ t, s.rxFramingTref = some t → t ∈ timers.live ∨ t ∈ w) :
    Guarded (handleFramingTimer s timers rc).state (handleFramingTimer s timers rc).timers w ↔
      (s.framer.buffered = [] → TimerIdle s timers) := by
  cases rc with
  | inFrame =>
    have hbuf : s.framer.buffered ≠ [] := hrc.mp rfl
    refine iff_of_true ?_ (fun h => absurd h hbuf)
    unfold handleFramingTimer
    dsimp only
    split
    · exact ⟨fun _ _ => .inl ⟨_, rfl, by simp [Timers.sendAfter]⟩, fun t ht => .inl (by
        obtain rfl := Option.some.inj ht
        simp [Timers.sendAfter])⟩
    · next hle => exact ⟨fun hlt => absurd hlt hle, htref⟩
  | ok =>
    have hbuf : s.framer.buffered = [] := by
      by_contra hne
      exact absurd (hrc.mpr hne) (by simp)
    cases hs : s.rxFramingTref with
    | none =>
      refine iff_of_true ?_ (fun _ t ht => absurd (hs.symm.trans ht) (by simp))
      simp only [handleFramingTimer, hs]
      exact ⟨fun _ h => absurd hbuf h, fun t ht => absurd (hs.symm.trans ht) (by simp)⟩
    | some tref =>
      simp only [handleFramingTimer, hs]
      constructor
      · intro hg _ t ht hlive
        obtain rfl : tref = t := by simpa [hs] using ht
        rcases hg.tref tref rfl with hl | hw
        · exact (mem_cancel.mp hl).2 rfl
        · exact (List.disjoint_of_nodup_append hf.nodup) hlive hw
      · intro hidle
        refine ⟨fun _ h => absurd hbuf h, fun t ht => ?_⟩
        obtain rfl := Option.some.inj ht
        exact .inr ((htref tref hs).resolve_left (hidle hbuf tref hs))

omit [Octet β] in
/-- New options leave a guarded state unless they raise the timeout over buffered bytes
that no timer waits for. -/
theorem guarded_options {s s' : State β} {timers : Timers} {w : List Tref}
    {opts : List UartOption} (hg : Guarded s timers w)
    (taken : OptionsTaken opts s s') : Guarded s' timers w ↔ RaiseGuarded s timers w opts := by
  constructor
  · intro hg' hraise hne
    have hframe := hg'.frame (by rw [taken.timeout]; exact hraise.2.2)
      (by rw [taken.buffered, if_pos hraise.1]; exact hne)
    rwa [taken.tref] at hframe
  · intro hraise
    refine ⟨fun hpos hne => ?_, fun t ht => hg.tref t (taken.tref ▸ ht)⟩
    rw [taken.timeout] at hpos
    rw [taken.buffered] at hne
    rw [taken.tref]
    split at hne
    · next hkeep =>
      rcases Int.lt_or_le 0 s.rxFramingTimeout with hold | hold
      · exact hg.frame hold hne
      · exact hraise ⟨hkeep, hold, hpos⟩ hne
    · exact absurd rfl hne

omit [Octet β] in
theorem guarded_queue {s : State β} {timers : Timers} {w : List Tref} (queue : List (Message β)) :
    Guarded { s with queuedMessages := queue } timers w ↔ Guarded s timers w :=
  ⟨fun h => ⟨h.frame, h.tref⟩, fun h => ⟨h.frame, h.tref⟩⟩

/-- Received data leaves a guarded state exactly when it may complete its frames. -/
theorem guarded_afterData {s : State β} {timers : Timers} {w : List Tref} {data : List β} {rc : Rc}
    {ms : List (Message β)} {framer : Framer β} (hf : Fresh timers w) (hg : Guarded s timers w)
    (framed : s.framer.removeFraming data = some (rc, ms, framer)) :
    Guarded (afterData s timers framer rc).state (afterData s timers framer rc).timers w ↔
      CompletesIdle s timers data := by
  refine (guarded_handleFramingTimer (s := { s with framer := framer })
    (Framer.removeFraming_rc framed) hf hg.tref).trans ?_
  constructor
  · intro h rc' ms' framer' framed' hbuf
    rw [framed] at framed'
    obtain ⟨rfl, rfl, rfl⟩ := by simpa using framed'
    exact h hbuf
  · intro h hbuf
    exact h rc ms framer framed hbuf

/-- **One turn**, from a guarded state, leaves a guarded state exactly when it meets the
condition. -/
theorem Turn.guarded_iff {s : State β} {timers : Timers} {taken : Taken β} {ran : Ran β}
    {w : List Tref} (h : Turn s timers taken ran)
    (hp : ∀ p r, taken = .response p r → Coherent s p) (hf : Fresh timers (taken.trefs ++ w))
    (hg : Guarded s timers (taken.trefs ++ w)) :
    Guarded ran.state ran.timers w ↔ TurnGuards s timers w taken := by
  cases h with
  | ask asks =>
    refine iff_of_true hg ?_
    cases asks <;> trivial
  | readQueued _ => exact iff_of_true ⟨hg.frame, hg.tref⟩ trivial
  | configure => exact guarded_options hg (handleConfigure_options _ _ _ _)
  | @flush _ direction =>
    refine iff_of_true ⟨fun hpos hne => ?_, hg.tref⟩ trivial
    simp only [handleFlush, callPort, Framer.buffered_flush] at hne
    split at hne
    · exact hg.frame hpos hne
    · exact absurd rfl hne
  | control => exact iff_of_true ⟨hg.frame, hg.tref⟩ trivial
  | notified framed => exact guarded_afterData hf hg framed
  | failed => exact iff_of_true hg trivial
  | @timedOut t =>
    -- The message taken may have been the one that guarded the frame; the frame is gone too.
    refine iff_of_true ⟨fun _ hne => absurd ?_ hne, fun t ht => absurd ht ?_⟩ trivial
    · simp only [handleTimedOut, notifyTimedoutMessages_state, Framer.buffered_frameTimeout]
    · simp [handleTimedOut, notifyTimedoutMessages_state]
  | opened cont =>
    simp only [TurnGuards, cont]
    exact guarded_options hg (resumeOpening_options _ _ _ _ _ _)
  | closed cont =>
    simp only [TurnGuards, cont]
    refine (guarded_handleFramingTimer (s := { s with
      name := .closed, framer := s.framer.flush .both, queuedMessages := [] }) (w := w)
      ?_ hf hg.tref).trans ?_
    · simp [Framer.buffered_flush]
    · simp [Framer.buffered_flush, TimerIdle]
  | answered cont _ =>
    refine iff_of_true hg ?_
    rcases cont with hc | hc | ⟨_, _, hc, hr⟩
    · simp [TurnGuards, hc]
    · simp [TurnGuards, hc]
    · simp only [TurnGuards, hc]
      split <;> simp_all [Response.bytes]
  | wrote cont =>
    have hco := hp _ _ rfl
    simp only [Coherent, cont] at hco
    subst hco
    refine iff_of_true hg ?_
    simp [TurnGuards, cont]
  | @readData _ _ _ data _ _ _ _ cont ne framed =>
    have hread := guarded_afterData (w := w) hf hg framed
    cases data with
    | nil => exact absurd rfl ne
    | cons b bs =>
      simp only [TurnGuards, cont]
      exact (guarded_queue _).trans hread
  | @readMore _ _ _ _ _ data _ _ cont ne framed =>
    have hread := guarded_afterData (w := w) hf hg framed
    unfold handleRead
    cases data with
    | nil => exact absurd rfl ne
    | cons b bs =>
      simp only [TurnGuards, cont]
      split
      · exact (guarded_queue _).trans hread
      · exact hread

/-! ## Whole runs -/

/-- The property of a state of the process. -/
def FramesGuarded (σ : Server β) : Prop := Guarded σ.state σ.timers (waiting σ.mailbox)

/-- What holds of every state reached, guarded or not. -/
def Sound (σ : Server β) : Prop := PendingOk σ ∧ Fresh σ.timers (waiting σ.mailbox)

theorem step_sound {σ σ' : Server β} {e : Event β} {out : List (Label β)} (hs : Sound σ)
    (h : step σ e = some (σ', out)) : Sound σ' :=
  ⟨step_pendingOk h hs.1, step_fresh h hs.2⟩

omit [Octet β] in
theorem sound_init : Sound ({} : Server β) :=
  ⟨fun p hp => absurd hp (by simp), ⟨List.nodup_nil, fun t ht => absurd ht (by simp [waiting])⟩⟩

/-- **One step**, from a guarded state, leaves a guarded state exactly when it meets the
condition. -/
theorem step_guarded_iff {σ σ' : Server β} {e : Event β} {out : List (Label β)} (hs : Sound σ)
    (hg : FramesGuarded σ) (h : step σ e = some (σ', out)) : FramesGuarded σ' ↔ Guards σ e := by
  rcases step_cases h with ⟨m, rfl, hm, rfl, rfl⟩ | ⟨t, rfl, hlive, rfl, rfl⟩ |
    ⟨now, clock, taken, rest, ran, rfl, hnext, hrun, rfl, rfl⟩
  · refine iff_of_true ⟨fun hpos hne => ?_, fun t ht => ?_⟩ trivial
    · rw [waiting_append]
      exact (hg.frame hpos hne).imp id (fun hw h => hw (List.append_eq_nil_iff.mp h).1)
    · rw [waiting_append]
      exact (hg.tref t ht).imp id (fun hw => List.mem_append_left _ hw)
  · -- An expiry moves the guard from the timer to its message.
    refine iff_of_true ⟨fun hpos hne => .inr ?_, fun t' ht' => ?_⟩ trivial
    · simp [waiting_append, waiting]
    · rw [waiting_append]
      by_cases heq : t' = t
      · exact .inr (by simp [heq, waiting])
      · rcases hg.tref t' ht' with hl | hw
        · exact .inl (mem_cancel.mpr ⟨hl, heq⟩)
        · exact .inr (List.mem_append_left _ hw)
  · have hw := waiting_next hnext
    have hturn := (turn_of_run hrun).guarded_iff (w := waiting rest) ?_ (hw ▸ hs.2) (hw ▸ hg)
    · refine hturn.trans ⟨fun h taken' rest' hnext' => ?_, fun h => h taken rest hnext⟩
      rw [hnext] at hnext'
      obtain ⟨rfl, rfl⟩ := by simpa using hnext'
      exact h
    · intro p r heq
      subst heq
      rcases next_eq_some hnext with ⟨m, hm, -⟩ | ⟨p', r', _, _, hpr, hpend, -⟩
      · exact absurd hm (by simp)
      · obtain ⟨rfl, rfl⟩ := by simpa using hpr
        exact hs.1 p hpend

/-- **Incomplete frames are guarded throughout a run exactly when every step of it meets
the condition**, and then they are in particular between callbacks, where `state` is the
GenServer's own. -/
theorem everyState_guarded_iff (es : List (Event β)) :
    (EveryState step FramesGuarded ({} : Server β) es ↔ EveryStep step Guards ({} : Server β) es) ∧
      (EveryStep step Guards ({} : Server β) es →
        EveryState step (fun σ => σ.pending = none → FramesGuarded σ) ({} : Server β) es) := by
  have hguarded : FramesGuarded ({} : Server β) :=
    ⟨fun hpos => absurd hpos (by simp), fun t ht => absurd ht (by simp)⟩
  have hiff : EveryState step FramesGuarded ({} : Server β) es ↔
      EveryStep step Guards ({} : Server β) es :=
    everyState_iff_everyStep (fun _ _ _ _ => step_sound)
      (fun _ _ _ _ hs hg => step_guarded_iff hs hg) sound_init hguarded
  refine ⟨hiff, fun h => (hiff.mpr h).mono ?_⟩
  intro σ hg _
  exact hg

/-- A line begun in one notification and ended in the next, with a timeout set. -/
def completedLine : List (Event UInt8) :=
  [.arrive (.call 0 (.open [] [.framing (.module .line), .rxFramingTimeout 100])), .turn 0 0,
    .arrive (.resp .ok), .turn 0 0,
    .arrive (.notif (.data [65])), .turn 0 0,
    .arrive (.notif (.data [10])), .turn 0 0]

/-- The server is left with the reference of a timer it has cancelled. -/
theorem not_guarded_completedLine :
    ¬ EveryState step (fun σ => σ.pending = none → FramesGuarded σ) ({} : Server UInt8)
      completedLine := by
  intro h
  have hlast := h.of_exec (rfl : exec step {} completedLine = some (_, _))
  rcases (hlast rfl).tref 0 rfl with hlive | hwaiting
  · exact absurd hlive (by decide)
  · exact absurd hwaiting (by decide)

end CircuitsUart.Server
