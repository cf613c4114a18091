import CircuitsUart.Wire

/-!
# The callbacks of `Circuits.UART`

`lib/circuits_uart.ex` as the GenServer runs it: the state, and `handle_call/3` and
`handle_info/2` as functions on it.

`call_port/4` blocks in the middle of a callback until the port answers. A callback is
therefore cut there: it ends with `Pending`, which holds what the rest of the callback
needs, and `resume` is that rest, run on the response. What the callbacks do besides
changing the state is a list of `Label`s, in order. Timers are the references
`:timer.send_after/2` has handed out; how long one runs is left to the environment.
-/

set_option autoImplicit false

namespace CircuitsUart.Server

abbrev Pid := Nat

/-- What `:timer.send_after/2` returns. -/
abbrev Tref := Nat

/-- `state.name`. -/
inductive PortName
  | closed
  | name (bytes : List UInt8)
  deriving DecidableEq, Repr

/-- `%Circuits.UART.State{}`; `framing` and `framing_state` are `framer`. -/
structure State (β : Type) where
  controllingProcess : Option Pid := none
  name : PortName := .closed
  framer : Framer β := .none
  rxFramingTimeout : Int := 0
  queuedMessages : List (Message β) := []
  rxFramingTref : Option Tref := none
  isActive : Bool := true
  id : IdMode := .name
  deriving DecidableEq, Repr

/-- The timers that are running, and the next reference. -/
structure Timers where
  live : List Tref := []
  next : Tref := 0
  deriving DecidableEq, Repr

/-- `:timer.cancel/1`. -/
def Timers.cancel (timers : Timers) (tref : Tref) : Timers :=
  { timers with live := timers.live.filter (· ≠ tref) }

/-- `:timer.send_after/2`, which returns `timers.next`. -/
def Timers.sendAfter (timers : Timers) : Timers :=
  { live := timers.live ++ [timers.next], next := timers.next + 1 }

/-- The client API: what `handle_call/3` is given. -/
inductive Call
  | open (name : List UInt8) (opts : List UartOption)
  | configuration
  | close
  | read (timeout : Nat)
  | write (data : List UInt8) (timeout : Nat)
  | configure (opts : List UartOption)
  | drain
  | flush (direction : Direction)
  | signals
  | setDtr (value : Bool)
  | setRts (value : Bool)
  | setBreak (value : Bool)
  | controllingProcess (pid : Pid)
  deriving DecidableEq, Repr

/-- `message_id/2`. -/
inductive MessageId
  | pid
  | name (name : PortName)
  deriving DecidableEq, Repr

/-- What the controlling process is sent: a message of the framer, or `{:error, reason}`. -/
inductive Notice (β : Type)
  | message (message : Message β)
  | error (reason : Reason)
  deriving DecidableEq, Repr

/-- What a client is replied. `{:ok, <<>>}` for a read that timed out is kept apart from
`{:ok, message}`. -/
inductive Reply (β : Type)
  | message (message : Message β)
  | readTimeout
  | port (response : Response β)
  | configuration (name : PortName) (port : List Term) (isActive : Bool) (id : IdMode)
      (rxFramingTimeout : Int) (framing : FramingModule)
  | ok

/-- A message in the server's mailbox. `:rx_framing_timed_out` is a bare atom; the timer
that sent it is recorded here, and no callback looks at it. -/
inductive Msg (β : Type)
  | call (fromPid : Pid) (call : Call)
  | notif (notification : Notification β)
  | resp (response : Response β)
  | rxFramingTimedOut (tref : Tref)

/-- What a callback does besides changing the state. -/
inductive Label (β : Type)
  /-- a message reached the mailbox -/
  | arrived (message : Msg β)
  /-- `call_port/4` sent a command -/
  | asked (command : Command)
  /-- bytes went through `remove_framing/2`; `started` is the timer started on them -/
  | received (data : List β) (rc : Rc) (messages : List (Message β)) (started : Option Tref)
  /-- `handle_info(:rx_framing_timed_out)` ran, on this framer with this timeout in force -/
  | timedOut (tref : Tref) (framer : Framer β) (timeout : Int)
  /-- received bytes were flushed, or the framer was replaced -/
  | dropped
  | sent (dest : Pid) (id : MessageId) (notice : Notice β)
  | replied (fromPid : Pid) (reply : Reply β)

/-- The message of the framer the application gets with a label, if it gets one. -/
def Label.delivered {β : Type} : Label β → List (Message β)
  | .sent _ _ (.message m) => [m]
  | .replied _ (.message m) => [m]
  | _ => []

/-- What is left of a callback that waits for the port. -/
inductive Cont (β : Type)
  | opening (name : List UInt8) (opts : List UartOption)
  | configuration
  | closing
  | reading (timeout : Nat) (callTime : Int)
  | writing (framer : Framer β)
  | passing

/-- A callback that waits in `call_port/4` for the response to `command`. -/
structure Pending (β : Type) where
  fromPid : Pid
  command : Command
  cont : Cont β

/-- How a callback leaves the server: with a new state, and waiting or not. -/
structure Ran (β : Type) where
  state : State β
  timers : Timers
  pending : Option (Pending β)
  out : List (Label β)

variable {β : Type}

/-! ## Framing and timers -/

/-- `change_framing/2`. -/
def changeFraming (s : State β) : Option FramingOpt → State β
  | none => s
  | some (.module framing) => { s with framer := .init framing {} }
  | some (.withArgs framing args) => { s with framer := .init framing args }

theorem changeFraming_state (s : State β) (o : Option FramingOpt) :
    changeFraming s o = { s with framer := (changeFraming s o).framer } := by
  rcases o with _ | ⟨m⟩ | ⟨m, args⟩ <;> rfl

/-- A new framer holds nothing. -/
theorem buffered_changeFraming (s : State β) (o : Option FramingOpt) :
    (changeFraming s o).framer.buffered = if o = none then s.framer.buffered else [] := by
  rcases o with _ | ⟨m⟩ | ⟨m, args⟩ <;> simp [changeFraming]

/-- The label of a `:framing` option. -/
def reframed (opts : List UartOption) : List (Label β) :=
  if (keywordGet (fun o => o.framing?.map some) opts none).isSome then [.dropped] else []

/-- The state and the timers after `handle_framing_timer/2`, and the timer it started. -/
structure Timed (β : Type) where
  state : State β
  timers : Timers
  started : Option Tref := none

/-- `handle_framing_timer/2`. The first clause keeps the reference it cancels. -/
def handleFramingTimer (s : State β) (timers : Timers) : Rc → Timed β
  | .ok =>
    match s.rxFramingTref with
    | some tref => { state := { s with rxFramingTref := some tref }, timers := timers.cancel tref }
    | none => { state := s, timers := timers }
  | .inFrame =>
    if 0 < s.rxFramingTimeout then
      let cancelled := match s.rxFramingTref with
        | some tref => timers.cancel tref
        | none => timers
      { state := { s with rxFramingTref := some cancelled.next },
        timers := cancelled.sendAfter,
        started := some cancelled.next }
    else { state := s, timers := timers }

/-- Only the reference changes. -/
theorem handleFramingTimer_state (s : State β) (timers : Timers) (rc : Rc) :
    (handleFramingTimer s timers rc).state =
      { s with rxFramingTref := (handleFramingTimer s timers rc).state.rxFramingTref } := by
  unfold handleFramingTimer
  cases rc with
  | ok => cases s.rxFramingTref <;> rfl
  | inFrame => dsimp only; split <;> rfl

@[simp] theorem handleFramingTimer_framer (s : State β) (timers : Timers) (rc : Rc) :
    (handleFramingTimer s timers rc).state.framer = s.framer := by
  rw [handleFramingTimer_state]

@[simp] theorem handleFramingTimer_queuedMessages (s : State β) (timers : Timers) (rc : Rc) :
    (handleFramingTimer s timers rc).state.queuedMessages = s.queuedMessages := by
  rw [handleFramingTimer_state]

@[simp] theorem handleFramingTimer_rxFramingTimeout (s : State β) (timers : Timers) (rc : Rc) :
    (handleFramingTimer s timers rc).state.rxFramingTimeout = s.rxFramingTimeout := by
  rw [handleFramingTimer_state]

@[simp] theorem handleFramingTimer_isActive (s : State β) (timers : Timers) (rc : Rc) :
    (handleFramingTimer s timers rc).state.isActive = s.isActive := by
  rw [handleFramingTimer_state]

@[simp] theorem handleFramingTimer_controllingProcess (s : State β) (timers : Timers) (rc : Rc) :
    (handleFramingTimer s timers rc).state.controllingProcess = s.controllingProcess := by
  rw [handleFramingTimer_state]

/-- `message_id/2`. -/
def messageId (s : State β) : MessageId :=
  match s.id with
  | .pid => .pid
  | .name => .name s.name

/-- `report_message/2` for each message, if there is a controlling process. -/
def reportMessages (s : State β) (notices : List (Notice β)) : List (Label β) :=
  match s.controllingProcess with
  | some dest => notices.map fun n => .sent dest (messageId s) n
  | none => []

/-- Reports are all messages to the controlling process. -/
theorem mem_reportMessages {s : State β} {notices : List (Notice β)} {l : Label β}
    (h : l ∈ reportMessages s notices) :
    ∃ dest id notice, notice ∈ notices ∧ l = .sent dest id notice := by
  unfold reportMessages at h
  split at h
  · next dest _ =>
    obtain ⟨notice, hn, rfl⟩ := List.mem_map.mp h
    exact ⟨dest, messageId s, notice, hn, rfl⟩
  · exact absurd h (by simp)

/-- `notify_timedout_messages/2`: active with a controlling process, passive, neither. -/
def notifyTimedoutMessages (s : State β) (messages : List (Message β)) : State β × List (Label β) :=
  match s.isActive, s.controllingProcess with
  | true, some _ => (s, reportMessages s (messages.map .message))
  | false, _ => ({ s with queuedMessages := s.queuedMessages ++ messages }, [])
  | true, none => (s, [])

/-- Only the queue changes, and only in passive mode. -/
theorem notifyTimedoutMessages_state (s : State β) (messages : List (Message β)) :
    (notifyTimedoutMessages s messages).1 = { s with
      queuedMessages := s.queuedMessages ++ if s.isActive then [] else messages } := by
  unfold notifyTimedoutMessages
  cases ha : s.isActive <;> cases hc : s.controllingProcess <;> simp [← ha, ← hc]

/-! ## `handle_call/3` -/

/-- `{:reply, reply, state}`. -/
def replyWith (s : State β) (timers : Timers) (fromPid : Pid) (reply : Reply β)
    (out : List (Label β)) : Ran β :=
  { state := s, timers := timers, pending := none, out := out ++ [.replied fromPid reply] }

/-- `call_port/4` up to its `receive`. -/
def callPort (s : State β) (timers : Timers) (fromPid : Pid) (command : Command) (cont : Cont β)
    (out : List (Label β)) : Ran β :=
  { state := s, timers := timers, pending := some ⟨fromPid, command, cont⟩,
    out := out ++ [.asked command] }

/-- `handle_call({:read, timeout}, ..)`: a queued message, or a poll of the port. -/
def handleRead (s : State β) (timers : Timers) (fromPid : Pid) (timeout : Nat) (clock : Int)
    (out : List (Label β)) : Ran β :=
  match s.queuedMessages with
  | message :: rest =>
    replyWith { s with queuedMessages := rest } timers fromPid (.message message) out
  | [] => callPort s timers fromPid (.read timeout) (.reading timeout clock) out

/-- `handle_call({:configure, opts}, ..)`: the state changes before the port is asked. -/
def handleConfigure (s : State β) (timers : Timers) (fromPid : Pid) (opts : List UartOption) :
    Ran β :=
  let newFraming := keywordGet (fun o => o.framing?.map some) opts none
  let newRxFramingTimeout := keywordGet UartOption.rxFramingTimeout? opts s.rxFramingTimeout
  let isActive := keywordGet UartOption.active? opts s.isActive
  let idMode := keywordGet UartOption.id? opts s.id
  let s' := changeFraming
    { s with rxFramingTimeout := newRxFramingTimeout, isActive := isActive, id := idMode }
    newFraming
  callPort s' timers fromPid (.configure opts) .passing (reframed opts)

/-- `handle_call({:flush, direction}, ..)`: the framer is flushed before the port is. -/
def handleFlush (s : State β) (timers : Timers) (fromPid : Pid) (direction : Direction) : Ran β :=
  callPort { s with framer := s.framer.flush direction } timers fromPid (.flush direction) .passing
    (if direction = .transmit then [] else [.dropped])

/-- `handle_call/3`. -/
def handleCall (s : State β) (timers : Timers) (fromPid : Pid) (clock : Int) : Call → Ran β
  | .open name opts => callPort s timers fromPid (.open name opts) (.opening name opts) []
  | .configuration => callPort s timers fromPid .configuration .configuration []
  | .close => callPort s timers fromPid .close .closing []
  | .read timeout => handleRead s timers fromPid timeout clock []
  | .write data timeout =>
    callPort s timers fromPid (.write (s.framer.addFraming data).1 timeout)
      (.writing (s.framer.addFraming data).2) []
  | .configure opts => handleConfigure s timers fromPid opts
  | .drain => callPort s timers fromPid .drain .passing []
  | .flush direction => handleFlush s timers fromPid direction
  | .signals => callPort s timers fromPid .signals .passing []
  | .setDtr value => callPort s timers fromPid (.setDtr value) .passing []
  | .setRts value => callPort s timers fromPid (.setRts value) .passing []
  | .setBreak value => callPort s timers fromPid (.setBreak value) .passing []
  | .controllingProcess pid =>
    replyWith { s with controllingProcess := some pid } timers fromPid .ok []

/-! ### The rest of a callback -/

/-- `handle_call({:open, ..})` from the response on. -/
def resumeOpening (s : State β) (timers : Timers) (fromPid : Pid) (name : List UInt8)
    (opts : List UartOption) (r : Response β) : Ran β :=
  let newFraming := keywordGet (fun o => o.framing?.map some) opts none
  let newRxFramingTimeout := keywordGet UartOption.rxFramingTimeout? opts s.rxFramingTimeout
  let isActive := keywordGet UartOption.active? opts true
  let idMode := keywordGet UartOption.id? opts .name
  -- whatever the response is
  let s' := changeFraming
    { s with
      name := .name name, controllingProcess := some fromPid,
      rxFramingTimeout := newRxFramingTimeout, isActive := isActive, id := idMode }
    newFraming
  replyWith s' timers fromPid (.port r) (reframed opts)

/-- What `open` and `configure` both do with their options, to everything but the mode, the
`:id` and the name. -/
structure OptionsTaken (opts : List UartOption) (s s' : State β) : Prop where
  timeout : s'.rxFramingTimeout =
    keywordGet UartOption.rxFramingTimeout? opts s.rxFramingTimeout
  framer : keywordGet (fun o => o.framing?.map some) opts none = none → s'.framer = s.framer
  buffered : s'.framer.buffered =
    if keywordGet (fun o => o.framing?.map some) opts none = none then s.framer.buffered else []
  tref : s'.rxFramingTref = s.rxFramingTref
  queue : s'.queuedMessages = s.queuedMessages

theorem optionsTaken_changeFraming {opts : List UartOption} {s s₀ : State β}
    (timeout : s₀.rxFramingTimeout =
      keywordGet UartOption.rxFramingTimeout? opts s.rxFramingTimeout)
    (framer : s₀.framer = s.framer) (tref : s₀.rxFramingTref = s.rxFramingTref)
    (queue : s₀.queuedMessages = s.queuedMessages) :
    OptionsTaken opts s
      (changeFraming s₀ (keywordGet (fun o => o.framing?.map some) opts none)) where
  timeout := by rw [changeFraming_state, timeout]
  framer none := by rw [none, ← framer]; rfl
  buffered := by rw [buffered_changeFraming, framer]
  tref := by rw [changeFraming_state, tref]
  queue := by rw [changeFraming_state, queue]

theorem handleConfigure_options (s : State β) (timers : Timers) (fromPid : Pid)
    (opts : List UartOption) :
    OptionsTaken opts s (handleConfigure s timers fromPid opts).state :=
  optionsTaken_changeFraming rfl rfl rfl rfl

theorem resumeOpening_options (s : State β) (timers : Timers) (fromPid : Pid)
    (name : List UInt8) (opts : List UartOption) (r : Response β) :
    OptionsTaken opts s (resumeOpening s timers fromPid name opts r).state :=
  optionsTaken_changeFraming rfl rfl rfl rfl

section Configured

variable (s : State β) (timers : Timers) (fromPid : Pid) (opts : List UartOption)

@[simp] theorem handleConfigure_name :
    (handleConfigure s timers fromPid opts).state.name = s.name := by
  rw [handleConfigure, callPort, changeFraming_state]

@[simp] theorem handleConfigure_controllingProcess :
    (handleConfigure s timers fromPid opts).state.controllingProcess = s.controllingProcess := by
  rw [handleConfigure, callPort, changeFraming_state]

@[simp] theorem handleConfigure_isActive :
    (handleConfigure s timers fromPid opts).state.isActive =
      keywordGet UartOption.active? opts s.isActive := by
  rw [handleConfigure, callPort, changeFraming_state]

@[simp] theorem handleConfigure_id :
    (handleConfigure s timers fromPid opts).state.id = keywordGet UartOption.id? opts s.id := by
  rw [handleConfigure, callPort, changeFraming_state]

variable (name : List UInt8) (r : Response β)

@[simp] theorem resumeOpening_name :
    (resumeOpening s timers fromPid name opts r).state.name = .name name := by
  rw [resumeOpening, replyWith, changeFraming_state]

@[simp] theorem resumeOpening_controllingProcess :
    (resumeOpening s timers fromPid name opts r).state.controllingProcess = some fromPid := by
  rw [resumeOpening, replyWith, changeFraming_state]

@[simp] theorem resumeOpening_isActive :
    (resumeOpening s timers fromPid name opts r).state.isActive =
      keywordGet UartOption.active? opts true := by
  rw [resumeOpening, replyWith, changeFraming_state]

@[simp] theorem resumeOpening_id :
    (resumeOpening s timers fromPid name opts r).state.id =
      keywordGet UartOption.id? opts .name := by
  rw [resumeOpening, replyWith, changeFraming_state]

end Configured

/-- `handle_call(:close, ..)` from the response on. -/
def resumeClosing (s : State β) (timers : Timers) (fromPid : Pid) (r : Response β) : Ran β :=
  let s' := { s with name := .closed, framer := s.framer.flush .both, queuedMessages := [] }
  let timed := handleFramingTimer s' timers .ok
  replyWith timed.state timed.timers fromPid (.port r) [.dropped]

variable [Octet β]

/-- `handle_call({:read, timeout}, ..)` from the response on: a timeout, data, an error.
With no message yet it goes round again, on what is left of the timeout. `now` is the clock
for `elapsed` and `clock` the one of the next round. -/
def resumeReading (s : State β) (timers : Timers) (fromPid : Pid) (timeout : Nat) (callTime : Int)
    (now clock : Int) : Response β → Option (Ran β)
  | .data [] => some (replyWith s timers fromPid .readTimeout [])
  | .data (b :: bs) =>
    match s.framer.removeFraming (b :: bs) with
    | none => none
    | some (rc, messages, framer') =>
      let timed := handleFramingTimer { s with framer := framer' } timers rc
      let out := [.received (b :: bs) rc messages timed.started]
      match messages with
      | [] =>
        let elapsed := now - callTime
        let retryTimeout := (timeout - elapsed).toNat
        some (handleRead timed.state timed.timers fromPid retryTimeout clock out)
      | firstMessage :: rest =>
        -- the queue is overwritten, which was empty when the port was asked
        some (replyWith { timed.state with queuedMessages := rest } timed.timers fromPid
          (.message firstMessage) out)
  | r => some (replyWith s timers fromPid (.port r) [])

/-- The rest of the callback that waits with `p`; `none` when it crashes or never returns. -/
def resume (s : State β) (timers : Timers) (p : Pending β) (now clock : Int) (r : Response β) :
    Option (Ran β) :=
  match p.cont with
  | .opening name opts => some (resumeOpening s timers p.fromPid name opts r)
  | .configuration =>
    match r with
    | .options port =>
      some (replyWith s timers p.fromPid
        (.configuration s.name port s.isActive s.id s.rxFramingTimeout s.framer.framing) [])
    | _ => none
  | .closing => some (resumeClosing s timers p.fromPid r)
  | .reading timeout callTime => resumeReading s timers p.fromPid timeout callTime now clock r
  | .writing framer' => some (replyWith { s with framer := framer' } timers p.fromPid (.port r) [])
  | .passing => some (replyWith s timers p.fromPid (.port r) [])

/-! ## `handle_info/2` -/

/-- `handle_port/2`: data goes through the framer and is reported, an error is reported. -/
def handlePort (s : State β) (timers : Timers) : Notification β → Option (Ran β)
  | .data data =>
    match s.framer.removeFraming data with
    | none => none
    | some (rc, messages, framer') =>
      let timed := handleFramingTimer { s with framer := framer' } timers rc
      some {
        state := timed.state, timers := timed.timers, pending := none,
        out := .received data rc messages timed.started ::
          reportMessages timed.state (messages.map .message) }
  | .error reason =>
    some { state := s, timers := timers, pending := none, out := reportMessages s [.error reason] }

/-- `handle_info(:rx_framing_timed_out, state)`. -/
def handleTimedOut (s : State β) (timers : Timers) (tref : Tref) : Ran β :=
  let timeout := s.framer.frameTimeout
  let notified := notifyTimedoutMessages { s with rxFramingTref := none, framer := timeout.2 } timeout.1
  { state := notified.1, timers := timers, pending := none,
    out := .timedOut tref s.framer s.rxFramingTimeout :: notified.2 }

end CircuitsUart.Server
