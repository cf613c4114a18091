import CircuitsUart.Port.Notified

/-!
# Where the reasons come from

A reason travels through `last_error`, which is recorded in one place and read in another.
Two programs are `Alike` if they differ in nothing else: handling an event, they send the same
messages, so what was recorded before the event is not reported, with one exception (`Stale`).

That is non-interference, and it is how "no stale reason" can be said at all: which of two equal
errors a response reports cannot be seen in the response, but whether it would be another if
another error had been recorded before can be.

A failing `read` is answered, in passive mode, with the errno, and notified, in active mode,
with the reason the port is closed for. At the end of the file these are not the same.
-/

set_option autoImplicit false

namespace CircuitsUart

open Port

namespace Program

variable {β : Type}

/-! ## Two computations -/

/-- Two computations that stop in the same way, or return what is related. -/
def Related {α : Type} (R : α → α → Prop) : Except Stop α → Except Stop α → Prop
  | .ok a, .ok b => R a b
  | .error stop, .error stop' => stop = stop'
  | _, _ => False

theorem Related.bind {α γ : Type} {R : α → α → Prop} {S : γ → γ → Prop} {x y : Except Stop α}
    {f g : α → Except Stop γ} (hxy : Related R x y) (hfg : ∀ a b, R a b → Related S (f a) (g b)) :
    Related S (x >>= f) (y >>= g) := by
  rcases x with stop | a
  · rcases y with stop' | b
    · exact hxy
    · exact False.elim hxy
  · rcases y with stop' | b
    · exact False.elim hxy
    · exact hfg a b hxy

/-- The program after another error was recorded. -/
def blame (p : Program β) (reason : Reason) : Program β := { p with lastError := reason }

/-- Only the last error is another. -/
def Alike (p q : Program β) : Prop := ∃ reason, q = p.blame reason

theorem Alike.refl (p : Program β) : Alike p p := ⟨p.lastError, rfl⟩

theorem alike_blame (p : Program β) (reason : Reason) : Alike p (p.blame reason) := ⟨reason, rfl⟩

theorem Alike.out {p q : Program β} (h : Alike p q) : q.out = p.out := by
  obtain ⟨reason, rfl⟩ := h
  rfl

section

variable {p q : Program β} (h : Alike p q)

include h

/-- Recording an error makes up for the difference. -/
theorem Alike.record (errno : Errno) : q.record errno = p.record errno := by
  obtain ⟨reason, rfl⟩ := h
  rfl

theorem Alike.recordErrno : q.recordErrno = p.recordErrno := by
  obtain ⟨reason, rfl⟩ := h
  rfl

theorem Alike.send (o : Out β) : Alike (p.send o) (q.send o) := by
  obtain ⟨reason, rfl⟩ := h
  exact ⟨reason, rfl⟩

theorem Alike.uartClose : Alike p.uartClose q.uartClose := by
  obtain ⟨reason, rfl⟩ := h
  have write : Alike p.cancelWrite (p.blame reason).cancelWrite := by
    show Alike (if p.uart.writeData.isSome then _ else _) (if p.uart.writeData.isSome then _ else _)
    split
    · exact .refl _
    · exact alike_blame p reason
  obtain ⟨reason', hwrite⟩ := write
  have read : Alike p.cancelWrite.cancelRead (p.cancelWrite.blame reason').cancelRead := by
    show Alike (if p.cancelWrite.uart.readPending then _ else _)
      (if p.cancelWrite.uart.readPending then _ else _)
    split
    · exact .refl _
    · exact alike_blame _ reason'
  obtain ⟨reason'', hread⟩ := read
  unfold Program.uartClose
  rw [hwrite, hread]
  exact ⟨reason'', rfl⟩

theorem Alike.uartCloseOnError (reason : Errno) :
    Alike (p.uartCloseOnError reason) (q.uartCloseOnError reason) := by
  obtain ⟨reason', closed⟩ := h.uartClose
  unfold Program.uartCloseOnError
  rw [closed]
  dsimp only
  show Alike (if p.uartClose.uart.activeModeEnabled then _ else _)
    (if p.uartClose.uart.activeModeEnabled then _ else _)
  split
  · exact .refl _
  · exact alike_blame _ reason'

end

/-! ## Reading and writing -/

theorem read_alike (os : Os β) {p q : Program β} (h : Alike p q) :
    Related (fun r s => r.1 = s.1 ∧ Alike r.2 s.2) (p.read os) (q.read os) := by
  obtain ⟨reason, rfl⟩ := h
  unfold Program.read blame
  dsimp only
  cases p.uart.fd with
  | none => exact ⟨rfl, reason, rfl⟩
  | some fd =>
    dsimp only
    cases retry p.dev.errno os.reads with
    | none => exact rfl
    | some r => exact ⟨rfl, reason, rfl⟩

theorem write_alike (os : Os β) (len : Nat) {p q : Program β} (h : Alike p q) :
    Related (fun r s => r.1 = s.1 ∧ Alike r.2 s.2) (p.write os len) (q.write os len) := by
  obtain ⟨reason, rfl⟩ := h
  unfold Program.write blame
  dsimp only
  cases p.uart.fd with
  | none => exact ⟨rfl, reason, rfl⟩
  | some fd =>
    dsimp only
    cases retry p.dev.errno os.writes with
    | none => exact rfl
    | some r => exact ⟨rfl, reason, rfl⟩

theorem uartWrite_alike (os : Os β) (data : List UInt8) (timeout : Int) {p q : Program β}
    (h : Alike p q) : Related Alike (p.uartWrite os data timeout) (q.uartWrite os data timeout) := by
  have wrote := write_alike os data.length h
  obtain ⟨reason, rfl⟩ := h
  unfold uartWrite
  show Related Alike _ (if p.uart.writeData.isSome then _ else _)
  split
  · exact rfl
  · refine wrote.bind ?_
    rintro ⟨written, q⟩ ⟨_, _⟩ ⟨rfl, reason', rfl⟩
    have alike := alike_blame q reason'
    have later : ∀ offset, Alike (q.writeLater os data offset timeout)
        ((q.blame reason').writeLater os data offset timeout) := fun offset => ⟨reason', rfl⟩
    cases written with
    | error e =>
      dsimp only
      split
      · exact later 0
      · rw [alike.recordErrno]
        exact Alike.refl _
    | ok written =>
      dsimp only
      split
      · split
        · exact later written
        · rw [alike.record]
          exact Alike.refl _
      · exact alike.send _

theorem checkWriteDeadline_alike (os : Os β) {p q : Program β} (h : Alike p q) :
    Alike (p.checkWriteDeadline os) (q.checkWriteDeadline os) := by
  obtain ⟨reason, rfl⟩ := h
  show Alike (if late p.uart.writeCompletionDeadline os.writeClock then _ else _)
    (if late p.uart.writeCompletionDeadline os.writeClock then _ else _)
  split
  · exact .refl _
  · exact alike_blame p reason

theorem processWrite_alike (os : Os β) {p q : Program β} (h : Alike p q) :
    Related Alike (p.processWrite os) (q.processWrite os) := by
  have wrote := fun len => write_alike os len h
  obtain ⟨reason, rfl⟩ := h
  have data : (p.blame reason).uart.writeData = p.uart.writeData := rfl
  unfold processWrite
  rw [data]
  cases p.uart.writeData with
  | none => exact alike_blame p reason
  | some data =>
    show Related Alike (p.continueInProgressWrite os data) _
    unfold continueInProgressWrite
    refine (wrote (data.length - p.uart.writeOffset)).bind ?_
    rintro ⟨written, q⟩ ⟨_, _⟩ ⟨rfl, reason', rfl⟩
    have alike := alike_blame q reason'
    have done : Alike (q.writeDone true) ((q.blame reason').writeDone true) := ⟨reason', rfl⟩
    cases written with
    | ok written =>
      show Related Alike (if written = data.length - p.uart.writeOffset then _ else _)
        (if written = data.length - p.uart.writeOffset then _ else _)
      split
      · exact done
      · refine checkWriteDeadline_alike os ?_
        exact ⟨reason', rfl⟩
    | error e =>
      dsimp only
      split
      · rw [alike.recordErrno]
        exact Alike.refl _
      · exact checkWriteDeadline_alike os alike

theorem readLater_alike (os : Os β) (timeout : Int) {p q : Program β} (h : Alike p q) :
    Alike (readLater os timeout p) (readLater os timeout q) := by
  obtain ⟨reason, rfl⟩ := h
  unfold readLater
  split <;> exact ⟨reason, rfl⟩

theorem uartRead_alike (os : Os β) (timeout : Int) {p q : Program β} (h : Alike p q) :
    Related Alike (p.uartRead os timeout) (q.uartRead os timeout) := by
  have read := read_alike os h
  obtain ⟨reason, rfl⟩ := h
  unfold uartRead
  show Related Alike _ (if p.uart.activeModeEnabled then _ else if p.uart.readPending then _ else _)
  split
  · exact Alike.refl _
  · split
    · exact rfl
    · refine read.bind ?_
      rintro ⟨bytesRead, q⟩ ⟨_, _⟩ ⟨rfl, reason', rfl⟩
      have alike := alike_blame q reason'
      cases bytesRead with
      | ok bytes =>
        cases bytes with
        | nil => exact readLater_alike os timeout alike
        | cons b bs => exact alike.send _
      | error e =>
        dsimp only
        split
        · exact readLater_alike os timeout alike
        · rw [alike.recordErrno]
          exact Alike.refl _

theorem readFailed_alike (reason : Errno) {p q : Program β} (h : Alike p q) :
    Alike (p.readFailed reason) (q.readFailed reason) := by
  have closed := h.uartCloseOnError reason
  obtain ⟨reason', rfl⟩ := h
  unfold readFailed
  dsimp only
  show Alike _ (uartCloseOnError (if p.uart.readPending then _ else _) reason)
  split
  · exact .refl _
  · exact closed

theorem processRead_alike (os : Os β) {p q : Program β} (h : Alike p q) :
    Related Alike (p.processRead os) (q.processRead os) := by
  unfold processRead
  refine (read_alike os h).bind ?_
  rintro ⟨bytesRead, q⟩ ⟨_, _⟩ ⟨rfl, reason', rfl⟩
  have alike := alike_blame q reason'
  have done : ∀ data, Alike (q.readDone (some data)) ((q.blame reason').readDone (some data)) :=
    fun data => ⟨reason', rfl⟩
  cases bytesRead with
  | ok bytes =>
    cases bytes with
    | nil => exact readFailed_alike .eio alike
    | cons b bs =>
      show Related Alike (if q.uart.activeModeEnabled then _ else _)
        (if q.uart.activeModeEnabled then _ else _)
      split
      · exact alike.send _
      · exact done (b :: bs)
  | error e =>
    dsimp only
    split
    · show Related Alike (if q.uart.readPending ∧ late q.uart.readCompletionDeadline os.readClock
        then _ else _) (if q.uart.readPending ∧ late q.uart.readCompletionDeadline os.readClock
        then _ else _)
      split
      · exact done []
      · exact alike
    · exact readFailed_alike e alike

theorem uartProcess_alike (os : Os β) {p q : Program β} (h : Alike p q) :
    Related Alike (p.uartProcess os) (q.uartProcess os) := by
  have wrote := processWrite_alike os h
  obtain ⟨reason, rfl⟩ := h
  have fd : (p.blame reason).uart.fd = p.uart.fd := rfl
  unfold uartProcess
  rw [fd]
  cases p.uart.fd with
  | none => exact alike_blame p reason
  | some fd =>
    refine wrote.bind ?_
    rintro q _ ⟨reason', rfl⟩
    show Related Alike (if q.uart.activeModeEnabled ∨ q.uart.readPending then _ else _)
      (if q.uart.activeModeEnabled ∨ q.uart.readPending then _ else _)
    split
    · exact processRead_alike os ⟨reason', rfl⟩
    · exact alike_blame q reason'

/-! ## Requests -/

theorem adopt_alike (os : Os β) (config : UartConfig) {p q : Program β} (h : Alike p q) :
    Alike (p.adopt os config) (q.adopt os config) := by
  obtain ⟨reason, rfl⟩ := h
  unfold adopt uartGetRs485Config blame
  dsimp only
  split
  · split <;> exact ⟨_, rfl⟩
  · exact ⟨_, rfl⟩

/-- Opening a device fails before it is tried, and nothing is recorded. -/
def Stale (p : Program β) : Event β → Prop
  | .request os (.open name opts) =>
    name.length < 64 ∧ (configure p.currentConfig opts).isSome = true ∧ os.pathOk = false
  | _ => False

/-- The same result; if it is a failure, an error was recorded. -/
def Records (r s : Bool × Program β) : Prop :=
  r.1 = s.1 ∧ Alike r.2 s.2 ∧ (r.1 = false → s.2 = r.2)

theorem Records.ok {p q : Program β} (h : Alike p q) : Records (true, p) (true, q) :=
  ⟨rfl, h, fun failed => absurd failed (by simp)⟩

theorem Records.failed (p : Program β) : Records (false, p) (false, p) :=
  ⟨rfl, .refl p, fun _ => rfl⟩

theorem uartOpen_alike {os : Os β} (path : os.pathOk = true) (name : List UInt8)
    (config : UartConfig) {p q : Program β} (h : Alike p q) :
    Records (uartOpen os name config p) (uartOpen os name config q) := by
  obtain ⟨reason, rfl⟩ := h
  obtain ⟨file, hfile⟩ : ∃ file, nameToDeviceFile os name = some file := by
    unfold nameToDeviceFile
    rw [if_pos path]
    split <;> exact ⟨_, rfl⟩
  unfold uartOpen
  rw [hfile]
  dsimp only
  cases os.opened file with
  | error errno => exact .failed _
  | ok r =>
    obtain ⟨fd, tty⟩ := r
    unfold blame
    dsimp only
    rcases openDevice os.fails config { p.dev with tty := tty } with ⟨_ | _, dev⟩
    · exact .failed _
    · exact .ok ⟨reason, rfl⟩

theorem handleOpen_alike {os : Os β} {name : List UInt8} {opts : List UartOption} {p q : Program β}
    (h : Alike p q) (fresh : ¬ Stale p (.request os (.open name opts))) :
    Alike (p.handleOpen os name opts) (q.handleOpen os name opts) := by
  have closed := h.uartClose
  obtain ⟨reason, rfl⟩ := h
  have config : (p.blame reason).currentConfig = p.currentConfig := rfl
  unfold handleOpen
  by_cases long : 64 ≤ name.length
  · rw [if_pos long, if_pos long]
    exact ⟨reason, rfl⟩
  · rw [if_neg long, if_neg long]
    rw [config]
    cases hc : configure p.currentConfig opts with
    | none => exact ⟨reason, rfl⟩
    | some config =>
      have path : os.pathOk = true := by
        by_contra missing
        exact fresh ⟨by omega, by rw [hc]; rfl, by simpa using missing⟩
      dsimp only
      have ready : Alike (if p.uartIsOpen then p.uartClose else p)
          (if (p.blame reason).uartIsOpen then (p.blame reason).uartClose else p.blame reason) := by
        show Alike _ (if p.uartIsOpen then _ else _)
        split
        · exact closed
        · exact ⟨reason, rfl⟩
      have opened := uartOpen_alike path (cString name) config ready
      revert opened
      generalize uartOpen os (cString name) config (if p.uartIsOpen then p.uartClose else p) = r
      generalize uartOpen os (cString name) config
        (if (p.blame reason).uartIsOpen then (p.blame reason).uartClose else p.blame reason) = r'
      obtain ⟨ok, r⟩ := r
      obtain ⟨ok', r'⟩ := r'
      rintro ⟨same, alike, recorded⟩
      obtain rfl : ok = ok' := same
      cases ok with
      | true => exact (adopt_alike os config alike).send _
      | false =>
        obtain rfl : r' = r := recorded rfl
        exact .refl _

theorem handleConfigure_alike (os : Os β) (opts : List UartOption) {p q : Program β}
    (h : Alike p q) : Related Alike (p.handleConfigure os opts) (q.handleConfigure os opts) := by
  obtain ⟨reason, rfl⟩ := h
  have config : (p.blame reason).currentConfig = p.currentConfig := rfl
  unfold handleConfigure
  rw [config]
  cases configure p.currentConfig opts with
  | none => exact (alike_blame p reason).send _
  | some config =>
    have configured : Related Records (p.uartConfigure os config)
        ((p.blame reason).uartConfigure os config) := by
      unfold uartConfigure blame
      dsimp only
      split
      · exact rfl
      · cases p.uart.fd with
        | none => exact Records.ok ⟨reason, rfl⟩
        | some fd =>
          dsimp only
          rcases configureDevice os.fails config p.dev with ⟨_ | _, dev⟩
          · exact Records.failed _
          · exact Records.ok ⟨reason, rfl⟩
    refine configured.bind ?_
    rintro ⟨ok, r⟩ ⟨ok', r'⟩ ⟨same, alike, recorded⟩
    obtain rfl : ok = ok' := same
    cases ok with
    | true => exact (adopt_alike os config alike).send _
    | false =>
      obtain rfl : r' = r := recorded rfl
      exact Alike.refl _

theorem whenOpen_alike {p q : Program β} (h : Alike p q)
    {go go' : Program β → Except Stop (Program β)} (hgo : Related Alike (go p) (go' q)) :
    Related Alike (p.whenOpen go) (q.whenOpen go') := by
  obtain ⟨reason, rfl⟩ := h
  unfold whenOpen
  show Related Alike (if p.uartIsOpen then _ else _) (if p.uartIsOpen then _ else _)
  split
  · exact hgo
  · exact (alike_blame p reason).send _

theorem call_alike (os : Os β) (site : CallSite) {p q : Program β} (h : Alike p q) :
    Alike (respond (p.call os site)) (respond (q.call os site)) := by
  obtain ⟨reason, rfl⟩ := h
  unfold call
  cases os.fails site with
  | none => exact (alike_blame p reason).send _
  | some errno => exact .refl _

theorem handleClose_alike {p q : Program β} (h : Alike p q) : Alike p.handleClose q.handleClose := by
  have closed := h.uartClose
  obtain ⟨reason, rfl⟩ := h
  unfold handleClose
  dsimp only
  show Alike _ (sendOkResponse (if p.uartIsOpen then _ else _))
  split
  · exact closed.send _
  · exact (alike_blame p reason).send _

theorem handleElixirRequest_alike {os : Os β} {command : Command} {p q : Program β}
    (h : Alike p q) (fresh : ¬ Stale p (.request os command)) :
    Related Alike (p.handleElixirRequest os command) (q.handleElixirRequest os command) := by
  have timed : ∀ (timeout : Nat) {go : Int → Program β → Except Stop (Program β)},
      (∀ t, Related Alike (go t p) (go t q)) → Related Alike
        (p.whenOpen fun p => decodeTimeout timeout >>= fun t => go t p)
        (q.whenOpen fun q => decodeTimeout timeout >>= fun t => go t q) := fun timeout go hgo => by
    refine whenOpen_alike h ?_
    cases decodeTimeout timeout with
    | ok t => exact hgo t
    | error stop => exact rfl
  have called : ∀ site, Related Alike (p.whenOpen fun p => .ok (respond (p.call os site)))
      (q.whenOpen fun q => .ok (respond (q.call os site))) :=
    fun site => whenOpen_alike h (call_alike os site h)
  cases command with
  | «open» name opts => exact handleOpen_alike h fresh
  | configure opts => exact handleConfigure_alike os opts h
  | configuration =>
    obtain ⟨reason, rfl⟩ := h
    exact (alike_blame p reason).send _
  | close => exact handleClose_alike h
  | write data timeout => exact timed timeout fun t => uartWrite_alike os data t h
  | read timeout => exact timed timeout fun t => uartRead_alike os t h
  | drain =>
    rw [handleElixirRequest, handleElixirRequest, handleDrain, handleDrain]
    refine whenOpen_alike h ?_
    have called := call_alike os .tcdrain h
    obtain ⟨reason, rfl⟩ := h
    unfold uartDrain
    show Related Alike _ ((if p.uart.writeData.isSome then _ else _) >>= _)
    split
    · exact rfl
    · exact called
  | flush direction =>
    rw [handleElixirRequest, handleElixirRequest, handleFlush, handleFlush]
    refine whenOpen_alike h ?_
    have called := call_alike os .tcflush h
    obtain ⟨reason, rfl⟩ := h
    unfold uartFlush
    show Related Alike _ ((if p.uart.readPending then _ else _) >>= _)
    split
    · exact rfl
    · exact called
  | setRts value => exact called .modemSet
  | setDtr value => exact called .modemSet
  | setBreak value => exact called .breakSet
  | signals =>
    rw [handleElixirRequest, handleElixirRequest, handleSignals, handleSignals]
    refine whenOpen_alike h ?_
    obtain ⟨reason, rfl⟩ := h
    unfold uartGetSignals call
    cases os.fails .modemGet with
    | none => exact (alike_blame p reason).send _
    | some errno => exact Alike.refl _

/-! ## What is not reported -/

/-- The messages sent while an event is handled do not tell which error was recorded before
it. -/
def Current (p : Program β) (e : Event β) : Prop :=
  ∀ reason, ((p.blame reason).handle e).map Program.out = (p.handle e).map Program.out

theorem current_of_fresh {p : Program β} {e : Event β} (fresh : ¬ Stale p e) : Current p e := by
  intro reason
  have alike : Related Alike (p.handle e) ((p.blame reason).handle e) := by
    cases e with
    | request os command =>
      have entered : Alike (p.enter os) ((p.blame reason).enter os) := ⟨reason, rfl⟩
      refine handleElixirRequest_alike entered fun stale => fresh ?_
      cases command <;> exact stale
    | process os => exact uartProcess_alike os (p := p.enter os) ⟨reason, rfl⟩
  revert alike
  cases p.handle e with
  | error stop =>
    cases (p.blame reason).handle e with
    | error stop' =>
      rintro rfl
      rfl
    | ok q => exact False.elim
  | ok q =>
    cases (p.blame reason).handle e with
    | error stop => exact False.elim
    | ok q' => exact fun alike => congrArg Except.ok alike.out

/-- A device that cannot be opened before it is tried: the response gives the last error. -/
theorem handle_stale {p : Program β} {e : Event β} (idle : p.pending = false) (stale : Stale p e) :
    ∃ q, p.handle e = .ok q ∧ q.out = [.response (.error p.lastError)] := by
  cases e with
  | process os => exact False.elim stale
  | request os command =>
    cases command with
    | «open» name opts =>
      obtain ⟨short, options, missing⟩ := stale
      obtain ⟨config, hc⟩ := Option.isSome_iff_exists.mp options
      obtain ⟨hw, hr⟩ := pending_eq_false.mp idle
      have closes : (p.enter os).uartClose =
          { p.enter os with uart := { p.uart with fd := none } } := by
        simp [uartClose, cancelWrite, cancelRead, enter, hw, hr]
      have opened : ∀ q : Program β, uartOpen os (cString name) config q = (false, q) := fun q => by
        unfold uartOpen nameToDeviceFile
        rw [missing]
        rfl
      refine ⟨_, rfl, ?_⟩
      show (handleOpen os name opts (p.enter os)).out = _
      unfold handleOpen
      rw [if_neg (by omega), show configure (p.enter os).currentConfig opts = some config from hc]
      dsimp only
      rw [opened]
      show (sendErrorResponse (if _ then _ else _) (lastError (if _ then _ else _))).out = _
      rw [closes]
      cases (p.enter os).uartIsOpen <;> rfl
    | _ => exact False.elim stale

theorem not_current_of_stale {p : Program β} {e : Event β} (idle : p.pending = false)
    (stale : Stale p e) : ¬ Current p e := by
  intro current
  have tells : ∀ reason, ((p.blame reason).handle e).map Program.out =
      .ok [.response (.error reason)] := fun reason => by
    have stale' : Stale (p.blame reason) e := by
      cases e with
      | process os => exact stale
      | request os command => cases command <;> exact stale
    obtain ⟨q, hq, hout⟩ := handle_stale (p := p.blame reason) idle stale'
    rw [hq]
    exact congrArg Except.ok hout
  have same := (current .eio).trans (current .ok).symm
  rw [tells, tells] at same
  simp at same

/-! ## One failure in two modes -/

/-- The port in passive mode, with a read pending. -/
def waiting (p : Program β) : Program β :=
  { p with uart := { p.uart with activeModeEnabled := false, readPending := true } }

/-- The port in active mode. -/
def listening (p : Program β) : Program β :=
  { p with uart := { p.uart with activeModeEnabled := true, readPending := false } }

/-- The reason in the first response sent from `p` to `q`, if that is an error. -/
def answer (p q : Program β) : Option Reason :=
  match (q.out.drop p.out.length).head? with
  | some (.response (.error reason)) => some reason
  | _ => none

/-- A `read` that fails is answered in passive mode with the reason that is notified in active
mode, the one the port is closed for. -/
def SameReason (os : Os β) (p : Program β) : Prop :=
  ∀ reason, readFailure os p = some reason →
    Yields (fun q => answer p q = some (recordLastError reason)) (p.waiting.processRead os) ∧
      Yields (fun q => errorNotifs q.out = errorNotifs p.out ++ [recordLastError reason])
        (p.listening.processRead os)

/-- `read` meets the end of the file, and `errno` is left from something else. -/
def LeftOver (os : Os β) (p : Program β) : Prop :=
  ∃ errno, errno ≠ .eio ∧ retry p.dev.errno os.reads = some (.ok [], errno)

theorem retry_error {α : Type} {errno e e' : Errno} {results : List (Except Errno α)}
    (h : retry errno results = some (.error e, e')) : e' = e := by
  induction results generalizing errno with
  | nil => exact absurd h (by simp [retry])
  | cons r rest ih =>
    rcases r with e'' | a
    · cases e'' with
      | eintr => exact ih h
      | _ =>
        obtain ⟨he, rfl⟩ := Prod.mk.inj (Option.some.inj h)
        exact Except.error.inj he
    · exact absurd h (by simp [retry])

/-- What a failing `read` returned, and the errno it left. -/
theorem readFailure_cases {os : Os β} {p : Program β} {reason : Errno}
    (isOpen : p.uart.fd.isSome = true) (h : readFailure os p = some reason) :
    (reason = .eio ∧ ∃ errno, retry p.dev.errno os.reads = some (.ok [], errno)) ∨
      reason ≠ .eagain ∧ retry p.dev.errno os.reads = some (.error reason, reason) := by
  obtain ⟨fd, hfd⟩ := Option.isSome_iff_exists.mp isOpen
  unfold readFailure readFinds at h
  rw [hfd] at h
  dsimp only at h
  rw [retry_fst .zero p.dev.errno] at h
  cases hr : retry p.dev.errno os.reads with
  | none => simp [hr] at h
  | some r =>
    obtain ⟨result, errno⟩ := r
    rw [hr] at h
    rcases result with e | _ | ⟨b, bs⟩
    · have fails : fatal e = some reason := h
      obtain rfl := fatal_eq_some fails
      have other : reason ≠ .eagain := fun busy => by
        rw [fatal, if_pos busy] at fails
        exact absurd fails (by simp)
      exact .inr ⟨other, by rw [retry_error hr]⟩
    · exact .inl ⟨(Option.some.inj h).symm, errno, rfl⟩
    · exact absurd h (by simp)

theorem processRead_readFailed {os : Os β} {p : Program β} {errno reason : Errno}
    {result : Except Errno (List β)} (isOpen : p.uart.fd.isSome = true)
    (hr : retry p.dev.errno os.reads = some (result, errno))
    (fails : result = .ok [] ∧ reason = .eio ∨ result = .error reason ∧ reason ≠ .eagain) :
    p.processRead os = .ok ((p.withErrno errno).readFailed reason) := by
  obtain ⟨fd, hfd⟩ := Option.isSome_iff_exists.mp isOpen
  have read : p.read os = .ok (result, p.withErrno errno) := by
    unfold Program.read
    rw [hfd]
    dsimp only
    rw [hr]
    rfl
  unfold processRead
  rw [read]
  rcases fails with ⟨rfl, rfl⟩ | ⟨rfl, other⟩
  · rfl
  · exact if_neg other

/-- The answer to a pending read is `errno`. -/
theorem answer_readFailed {p q : Program β} (waits : q.uart.readPending = true)
    (out : q.out = p.out) (reason : Errno) :
    answer p (q.readFailed reason) = some (recordLastError q.dev.errno) := by
  have first : ∃ rest, (q.readFailed reason).out =
      p.out ++ .response (.error (recordLastError q.dev.errno)) :: rest := by
    unfold readFailed
    rw [if_pos waits, out_uartCloseOnError, show (q.recordErrno.readDone none).out =
      q.out ++ [.response (.error (recordLastError q.dev.errno))] from rfl, out,
      List.append_assoc, List.append_assoc]
    exact ⟨_, rfl⟩
  obtain ⟨rest, hrest⟩ := first
  rw [answer, hrest, List.drop_left]
  rfl

theorem recordLastError_eio {errno : Errno} (h : recordLastError errno = .eio) : errno = .eio := by
  cases errno <;> first | rfl | exact absurd h (by simp [recordLastError])

/-- **A failing read has one reason** in both modes, but for an end of the file that leaves
another errno. -/
theorem sameReason_iff {os : Os β} {p : Program β} (real : os.Real)
    (isOpen : p.uart.fd.isSome = true) : SameReason os p ↔ ¬ LeftOver os p := by
  have isOpen' : p.waiting.uart.fd.isSome = true := isOpen
  constructor
  · rintro same ⟨errno, other, hr⟩
    obtain ⟨fd, hfd⟩ := Option.isSome_iff_exists.mp isOpen
    have fails : readFailure os p = some .eio := by
      unfold readFailure readFinds
      rw [hfd]
      dsimp only
      rw [retry_fst .zero p.dev.errno, hr]
      rfl
    have answered := (same .eio fails).1
    rw [processRead_readFailed (p := p.waiting) isOpen' hr (.inl ⟨rfl, rfl⟩)] at answered
    have wrong := (answer_readFailed (p := p) (q := p.waiting.withErrno errno) rfl rfl .eio).symm.trans
      answered
    exact other (recordLastError_eio (Option.some.inj wrong))
  · intro fresh reason fails
    have notified : Yields (fun q => errorNotifs q.out = errorNotifs p.out ++ [recordLastError reason])
        (p.listening.processRead os) := by
      have ends := processRead_ends os p.listening
      rw [show readFailure os p.listening = readFailure os p from readFailure_congr os rfl, fails]
        at ends
      refine ends.mono fun q closed => ?_
      have shut : Closed p.listening reason q := closed
      have isActive : p.listening.uart.activeModeEnabled = true := rfl
      rw [shut.notified, if_pos isActive, errorNotifs_errorNotif (readFailure_real real fails)]
      rfl
    refine ⟨?_, notified⟩
    rcases readFailure_cases isOpen fails with ⟨rfl, errno, hr⟩ | ⟨other, hr⟩
    · have eio : errno = .eio := by
        by_contra left
        exact fresh ⟨errno, left, hr⟩
      rw [processRead_readFailed (p := p.waiting) isOpen' hr (.inl ⟨rfl, rfl⟩), eio]
      exact answer_readFailed (p := p) (q := p.waiting.withErrno .eio) rfl rfl .eio
    · rw [processRead_readFailed (p := p.waiting) isOpen' hr (.inr ⟨rfl, other⟩)]
      exact answer_readFailed (p := p) (q := p.waiting.withErrno reason) rfl rfl reason

/-- **Reasons do not depend on the mode, and are not old.** In every state a failing read has
the same reason in both modes exactly if it is not an end of the file that leaves an errno other
than `EIO`. And in every run in which one request is sent at a time, no event reports an error
recorded before it, exactly if it does not open a device whose path cannot be made. -/
theorem reasons_iff :
    (∀ (os : Os β) (p : Program β), os.Real → p.uart.fd.isSome = true →
      (SameReason os p ↔ ¬ LeftOver os p)) ∧
    ∀ (h : List (Label β)) (p : Program β) (e : Event β), Lib.Reach step OneAtATime {} h p →
      OneAtATime h p e → (Current p e ↔ ¬ Stale p e) := by
  refine ⟨fun os p real isOpen => sameReason_iff real isOpen, fun h p e reach guard => ?_⟩
  refine ⟨fun current stale => ?_, current_of_fresh⟩
  cases e with
  | process os => exact stale
  | request os command =>
    have hm := matched_of_reach reach
    exact not_current_of_stale (hm.idle guard) stale current

/-- A port of which `errno` is `ENOTTY`, as a device without RS485 leaves it. -/
def withoutRs485 : Program UInt8 where
  uart := { fd := some 3 }
  dev := { tty := .raw, errno := .enotty }

/-- `EIO` is the reason in both modes; and in a port opened in passive mode, where a read is
pending, it is the error of the `read` that fails and no older one. -/
theorem reasons_iff_withoutRs485 :
    SameReason { reads := [.error .eio] } withoutRs485 ∧
      ∃ (h : List (Label UInt8)) (p : Program UInt8), Lib.Reach step OneAtATime {} h p ∧
        p.uart.readPending = true ∧ Current p (.process { reads := [.error .eio] }) := by
  constructor
  · refine (reasons_iff.1 _ _ ⟨by simp, by simp⟩ rfl).mpr ?_
    rintro ⟨errno, -, hr⟩
    exact absurd hr (by simp [retry])
  · have opened : Lib.Reach step OneAtATime {} _ _ := .step
      (e := (.request { opened := fun _ => .ok (3, .raw) } (.open ttyS0 [.active false]) :
        Event UInt8)) .start ⟨rfl, trivial⟩ rfl
    have reading := opened.step
      (e := (.request { reads := [.error .eagain] } (.read 1000) : Event UInt8))
      ⟨rfl, by decide⟩ rfl
    exact ⟨_, _, reading, rfl, (reasons_iff.2 _ _ (.process _) reading trivial).mpr id⟩

/-- At the end of the file the answer is `enotty`, and the notification `eio`. -/
theorem not_sameReason_endOfFile : ¬ SameReason { reads := [.ok []] } withoutRs485 := by
  intro same
  have answered : some Reason.enotty = some Reason.eio := (same .eio rfl).1
  exact absurd answered (by decide)

end Program

end CircuitsUart
