import CircuitsUart.Port.Program

/-!
# What an open and a configure do

The ways in which `handle_open` and `handle_configure` end, each with what it leaves: a list of
options that cannot be parsed (or a name that is too long) is refused and changes nothing, a
device that cannot be opened or set leaves `current_config` as it was, and a configuration that
was applied is adopted, with the RS485 settings read back from the device.

`Opening` and `Configuring` have a constructor for each way out of the handlers, and every proof
about an event that opens or configures splits on those. What separates the constructors is which
parts of the program go on and which are new: the mode is set before anything can fail, the
settings of the device only as far as the calls succeeded, `current_config` at the very end.
-/

set_option autoImplicit false

namespace CircuitsUart

open Port

namespace Program

variable {β : Type}

/-- What a computation returns, if it does. -/
def Yields {α : Type} (Q : α → Prop) : Except Stop α → Prop
  | .ok a => Q a
  | .error _ => True

theorem Yields.bind {α γ : Type} {Q : α → Prop} {R : γ → Prop} {x : Except Stop α}
    {f : α → Except Stop γ} (hx : Yields Q x) (hf : ∀ a, Q a → Yields R (f a)) :
    Yields R (x >>= f) := by
  cases x with
  | ok a => exact hf a hx
  | error stop => trivial

theorem Yields.mono {α : Type} {Q R : α → Prop} {x : Except Stop α} (hx : Yields Q x)
    (h : ∀ a, Q a → R a) : Yields R x := by
  cases x with
  | ok a => exact h a hx
  | error stop => trivial

/-! ## Opening -/

/-- `handle_open` closes the port first. -/
def shut (p : Program β) : Program β := if p.uartIsOpen then p.uartClose else p

/-- How `handle_open` ends. -/
inductive Opening (os : Os β) (name : List UInt8) (opts : List UartOption) (p : Program β) :
    Program β → Prop
  | refused (reason : Reason)
      (unfit : name.length < 64 → configure p.currentConfig opts = none) :
      Opening os name opts p (p.sendErrorResponse reason)
  | failed {config : UartConfig} {q : Program β} (short : name.length < 64)
      (parsed : configure p.currentConfig opts = some config)
      (tried : uartOpen os (cString name) config p.shut = (false, q)) :
      Opening os name opts p (q.sendErrorResponse q.lastError)
  | opened {config : UartConfig} {q : Program β} (short : name.length < 64)
      (parsed : configure p.currentConfig opts = some config)
      (tried : uartOpen os (cString name) config p.shut = (true, q)) :
      Opening os name opts p ((q.adopt os config).sendOkResponse)

theorem handleOpen_cases (os : Os β) (name : List UInt8) (opts : List UartOption) (p : Program β) :
    Opening os name opts p (p.handleOpen os name opts) := by
  unfold handleOpen
  split
  · next long => exact .refused .enoent fun short => absurd long (Nat.not_le.mpr short)
  · next short =>
    have short' := Nat.not_le.mp short
    split
    · next unparsed => exact .refused .einval fun _ => unparsed
    · next config parsed =>
      dsimp only
      split
      · next q tried => exact .opened short' parsed tried
      · next q tried => exact .failed short' parsed tried

/-- A port that could not be opened. -/
theorem uartOpen_failed {os : Os β} {name : List UInt8} {config : UartConfig} {p q : Program β}
    (h : uartOpen os name config p = (false, q)) (closed : p.uart.fd = none) :
    q.uart.fd = none ∧ q.currentConfig = p.currentConfig := by
  unfold uartOpen at h
  split at h
  · obtain ⟨-, rfl⟩ := Prod.mk.inj h
    exact ⟨closed, rfl⟩
  · split at h
    · obtain ⟨-, rfl⟩ := Prod.mk.inj h
      exact ⟨rfl, rfl⟩
    · dsimp only at h
      split at h
      · exact absurd (Prod.mk.inj h).1 (by simp)
      · obtain ⟨-, rfl⟩ := Prod.mk.inj h
        exact ⟨rfl, rfl⟩

/-- A port that was opened. -/
theorem uartOpen_opened {os : Os β} {name : List UInt8} {config : UartConfig} {p q : Program β}
    (h : uartOpen os name config p = (true, q)) :
    q.uart.fd.isSome = true ∧ q.uart.activeModeEnabled = config.active := by
  unfold uartOpen at h
  split at h
  · exact absurd (Prod.mk.inj h).1 (by simp)
  · split at h
    · exact absurd (Prod.mk.inj h).1 (by simp)
    · dsimp only at h
      split at h
      · obtain ⟨-, rfl⟩ := Prod.mk.inj h
        exact ⟨rfl, rfl⟩
      · exact absurd (Prod.mk.inj h).1 (by simp)

theorem out_uartOpen (os : Os β) (name : List UInt8) (config : UartConfig) (p : Program β) :
    (uartOpen os name config p).2.out = p.out := by
  unfold uartOpen
  split
  · rfl
  · split
    · rfl
    · dsimp only
      split <;> rfl

/-! ## Configuring -/

/-- How `handle_configure` ends. -/
inductive Configuring (os : Os β) (opts : List UartOption) (p : Program β) : Program β → Prop
  | refused (unparsed : configure p.currentConfig opts = none) :
      Configuring os opts p (p.sendErrorResponse .einval)
  | failed {config : UartConfig} {q : Program β}
      (parsed : configure p.currentConfig opts = some config)
      (tried : p.uartConfigure os config = .ok (false, q)) :
      Configuring os opts p (q.sendErrorResponse q.lastError)
  | configured {config : UartConfig} {q : Program β}
      (parsed : configure p.currentConfig opts = some config)
      (tried : p.uartConfigure os config = .ok (true, q)) :
      Configuring os opts p ((q.adopt os config).sendOkResponse)

theorem handleConfigure_cases (os : Os β) (opts : List UartOption) (p : Program β) :
    Yields (Configuring os opts p) (p.handleConfigure os opts) := by
  unfold handleConfigure
  split
  · next unparsed => exact .refused unparsed
  · next config parsed =>
    cases tried : p.uartConfigure os config with
    | error stop => trivial
    | ok r =>
      obtain ⟨_ | _, q⟩ := r
      · exact .failed parsed tried
      · exact .configured parsed tried

/-- The mode is set, and for an open port the device. -/
theorem uartConfigure_eq_ok {os : Os β} {config : UartConfig} {p q : Program β} {ok : Bool}
    (h : p.uartConfigure os config = .ok (ok, q)) :
    q.uart = { p.uart with activeModeEnabled := config.active } ∧
      q.currentConfig = p.currentConfig ∧ q.out = p.out ∧
      (p.uart.fd = none → ok = true ∧ q.dev = p.dev) ∧
      (p.uart.fd.isSome = true → configureDevice os.fails config p.dev = (ok, q.dev)) := by
  unfold uartConfigure at h
  split at h
  · exact absurd h (by simp)
  · dsimp only at h
    split at h
    · next closed =>
      obtain ⟨rfl, rfl⟩ := Prod.mk.inj (Except.ok.inj h)
      refine ⟨rfl, rfl, rfl, fun _ => ⟨rfl, rfl⟩, fun isOpen => ?_⟩
      have closed' : p.uart.fd = none := closed
      rw [closed'] at isOpen
      exact absurd isOpen (by simp)
    · next fd isOpen =>
      have isOpen' : p.uart.fd = some fd := isOpen
      have shut : p.uart.fd ≠ none := by simp [isOpen']
      split at h
      · next set =>
        obtain ⟨rfl, rfl⟩ := Prod.mk.inj (Except.ok.inj h)
        exact ⟨rfl, rfl, rfl, fun closed => absurd closed shut, fun _ => set⟩
      · next unset =>
        obtain ⟨rfl, rfl⟩ := Prod.mk.inj (Except.ok.inj h)
        exact ⟨rfl, rfl, rfl, fun closed => absurd closed shut, fun _ => unset⟩

/-! ## Adopting -/

/-- The RS485 settings can be read back. -/
def readsBack (os : Os β) (p : Program β) : Bool := p.uart.fd.isSome && (os.fails .rs485Report).isNone

@[simp] theorem uart_adopt (os : Os β) (config : UartConfig) (p : Program β) :
    (p.adopt os config).uart = p.uart := by
  unfold adopt uartGetRs485Config
  dsimp only
  split
  · split <;> rfl
  · rfl

@[simp] theorem tty_adopt (os : Os β) (config : UartConfig) (p : Program β) :
    (p.adopt os config).dev.tty = p.dev.tty := by
  unfold adopt uartGetRs485Config
  dsimp only
  split
  · split <;> rfl
  · rfl

@[simp] theorem out_adopt (os : Os β) (config : UartConfig) (p : Program β) :
    (p.adopt os config).out = p.out := by
  unfold adopt uartGetRs485Config
  dsimp only
  split
  · split <;> rfl
  · rfl

theorem currentConfig_adopt (os : Os β) (config : UartConfig) (p : Program β) :
    (p.adopt os config).currentConfig =
      if p.readsBack os then reportRs485 config p.dev.tty.rs485 else config := by
  unfold adopt uartGetRs485Config readsBack
  dsimp only
  cases p.uart.fd with
  | none => rfl
  | some fd =>
    dsimp only
    cases os.fails .rs485Report <;> rfl

end Program

end CircuitsUart
