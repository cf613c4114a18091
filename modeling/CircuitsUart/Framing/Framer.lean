import CircuitsUart.Framing.LineRun

/-!
# The framers of the library, as one type

`Circuits.UART` keeps the framing module and the module's state in two fields and only ever
calls the one on the other. Here the two are one value, `Framer`: a module together with a
state of its own, so a state is never handed to a module it does not belong to.

What the server's theorems need of a framer is said once, for whichever it is:

* `removeFraming_rc`: the return code says whether anything is buffered;
* `removeFraming_bytes`: every byte in a message or in the buffer was in the buffer or in
  the new data;
* `removeFraming_append`: data fed in two pieces is data fed in one, except to `None`;
* `exists_removeFraming`: a usable framer returns, and stays usable.
-/

set_option autoImplicit false

namespace CircuitsUart

variable {β : Type}

/-! ## `Circuits.UART.Framing.FourByte` -/

namespace FourByte

/-- `process_data/2`. -/
def processData : List β → List (Message β) → Rc × List (Message β) × List β
  | a :: b :: c :: d :: rest, messages => processData rest (messages ++ [.whole [a, b, c, d]])
  | [], messages => (.ok, messages, [])
  | short, messages => (.inFrame, messages, short)

/-- `remove_framing/2`. -/
def removeFraming (data rxBuffer : List β) : Rc × List (Message β) × List β :=
  processData (rxBuffer ++ data) []

/-- `frame_timeout/1`: the buffer goes up as if it were a message. -/
def frameTimeout (rxBuffer : List β) : List (Message β) × List β := ([.whole rxBuffer], [])

/-- `flush/2`. -/
def flush : Direction → List β → List β
  | .transmit, rxBuffer => rxBuffer
  | .receive, _ => []
  | .both, _ => []

/-- The loop without its accumulator: from `t` it reports `ms` and keeps `t'`. -/
inductive Process : List β → List (Message β) → List β → Prop
  | short {t : List β} (lt : t.length < 4) : Process t [] t
  | batch {a b c d : β} {rest t' : List β} {ms : List (Message β)} (go : Process rest ms t') :
      Process (a :: b :: c :: d :: rest) (.whole [a, b, c, d] :: ms) t'

theorem processData_of_process {t t' : List β} {ms : List (Message β)} (h : Process t ms t') :
    ∀ acc, processData t acc = (if t' = [] then .ok else .inFrame, acc ++ ms, t') := by
  induction h with
  | @short t lt =>
    intro acc
    rcases t with _ | ⟨a, _ | ⟨b, _ | ⟨c, _ | ⟨d, rest⟩⟩⟩⟩
    case cons.cons.cons.cons => exact absurd lt (by simp)
    all_goals simp [processData]
  | batch _ ih =>
    intro acc
    rw [processData, ih, List.append_assoc]
    rfl

theorem exists_process : ∀ t : List β, ∃ ms t', Process t ms t' ∧ t'.length < 4
  | [] => ⟨[], [], .short (by simp), by simp⟩
  | [a] => ⟨[], [a], .short (by simp), by simp⟩
  | [a, b] => ⟨[], [a, b], .short (by simp), by simp⟩
  | [a, b, c] => ⟨[], [a, b, c], .short (by simp), by simp⟩
  | a :: b :: c :: d :: rest =>
    have ⟨ms, t', h, hlt⟩ := exists_process rest
    ⟨_ :: ms, t', .batch h, hlt⟩

theorem Process.append {t t' t₂ d : List β} {ms ms₂ : List (Message β)} (h : Process t ms t')
    (h₂ : Process (t' ++ d) ms₂ t₂) : Process (t ++ d) (ms ++ ms₂) t₂ := by
  induction h with
  | short _ => exact h₂
  | batch _ ih => exact .batch (ih h₂)

theorem Process.bytes {t t' : List β} {ms : List (Message β)} (h : Process t ms t') :
    ∀ b, b ∈ t' ∨ (∃ m ∈ ms, b ∈ m.bytes) → b ∈ t := by
  induction h with
  | short _ => simp
  | batch _ ih =>
    intro x hx
    rcases hx with hx | ⟨m, hm, hx⟩
    · simp [ih x (.inl hx)]
    · rcases List.mem_cons.mp hm with rfl | hm
      · simp at hx ⊢
        tauto
      · simp [ih x (.inr ⟨m, hm, hx⟩)]

/-- Batches are never reported as partials. -/
theorem Process.part_notMem {t t' : List β} {ms : List (Message β)} (h : Process t ms t')
    (d : List β) : .part d ∉ ms := by
  induction h with
  | short _ => simp
  | batch _ ih => simpa using ih

theorem removeFraming_iff {data buf buf' : List β} {rc : Rc} {ms : List (Message β)} :
    removeFraming data buf = (rc, ms, buf') ↔
      Process (buf ++ data) ms buf' ∧ rc = if buf' = [] then .ok else .inFrame := by
  obtain ⟨ms₀, t', h, -⟩ := exists_process (buf ++ data)
  unfold removeFraming
  constructor
  · intro heq
    rw [processData_of_process h] at heq
    simp only [List.nil_append, Prod.mk.injEq] at heq
    obtain ⟨rfl, rfl, rfl⟩ := heq
    exact ⟨h, rfl⟩
  · rintro ⟨hp, rfl⟩
    rw [processData_of_process hp, List.nil_append]

end FourByte

/-! ## Bytes in and bytes out of the line framer -/

theorem Line.Process.bytes [Octet β] {sep : List UInt8} {max : Nat} {p t p' t' : List β}
    {ms : List (Message β)} (h : Line.Process sep max p t ms p' t') :
    ∀ b, b ∈ p' ++ t' ∨ (∃ m ∈ ms, b ∈ m.bytes) → b ∈ p ++ t := by
  induction h with
  | wait _ => simp
  | @separator p t p' t' ms _ _ ih =>
    intro x hx
    rcases hx with hx | ⟨m, hm, hx⟩
    · have := List.mem_of_mem_drop (by simpa using ih x (.inl hx))
      simp [this]
    · rcases List.mem_cons.mp hm with rfl | hm
      · simp at hx
        simp [hx]
      · have := List.mem_of_mem_drop (by simpa using ih x (.inr ⟨m, hm, hx⟩))
        simp [this]
  | tooLong _ _ _ _ ih =>
    intro x hx
    rcases hx with hx | ⟨m, hm, hx⟩
    · simp [show x ∈ _ by simpa using ih x (.inl hx)]
    · rcases List.mem_cons.mp hm with rfl | hm
      · simp at hx
        simp [hx]
      · simp [show x ∈ _ by simpa using ih x (.inr ⟨m, hm, hx⟩)]
  | next _ _ _ _ ih =>
    intro x hx
    simpa using ih x hx

/-- A partial is a full `processed`, and a line with no room for a byte is never reported:
the loop does not return. -/
theorem Line.Process.part_ne_nil [Octet β] {sep : List UInt8} {max : Nat} {p t p' t' : List β}
    {ms : List (Message β)} (h : Line.Process sep max p t ms p' t') : .part [] ∉ ms := by
  induction h with
  | wait _ => simp
  | separator _ _ ih => simpa using ih
  | tooLong long not_here full go ih =>
    intro hmem
    rcases List.mem_cons.mp hmem with heq | hmem
    · cases heq
      exact go.not_zero full.symm rfl long not_here
    · exact ih hmem
  | next _ _ _ _ ih => exact ih

/-! ## One type for all three -/

/-- The framing modules under `lib/uart/framing/`. -/
inductive FramingModule
  | none
  | fourByte
  | line
  deriving DecidableEq, Repr

/-- The value of a `:framing` option: a module, or a module with arguments for `init/1`. -/
inductive FramingOpt
  | module (framing : FramingModule)
  | withArgs (framing : FramingModule) (args : Line.Args)
  deriving DecidableEq, Repr

/-- `state.framing` and `state.framing_state`. -/
inductive Framer (β : Type)
  | none
  | fourByte (rxBuffer : List β)
  | line (state : Line.State β)
  deriving DecidableEq, Repr

namespace Framer

/-- `framing_mod.init(framing_args)`. -/
def init : FramingModule → Line.Args → Framer β
  | .none, _ => .none
  | .fourByte, _ => .fourByte []
  | .line, args => .line (Line.init args)

/-- `state.framing`. -/
def framing : Framer β → FramingModule
  | .none => .none
  | .fourByte _ => .fourByte
  | .line _ => .line

/-- `add_framing/2`. -/
def addFraming (data : List UInt8) : Framer β → List UInt8 × Framer β
  | .none => (data, .none)
  | .fourByte rxBuffer => (data, .fourByte rxBuffer)
  | .line state => ((Line.addFraming data state).1, .line (Line.addFraming data state).2)

/-- `frame_timeout/1`. -/
def frameTimeout : Framer β → List (Message β) × Framer β
  | .none => ([], .none)
  | .fourByte rxBuffer =>
    ((FourByte.frameTimeout rxBuffer).1, .fourByte (FourByte.frameTimeout rxBuffer).2)
  | .line state => ((Line.frameTimeout state).1, .line (Line.frameTimeout state).2)

/-- `flush/2`. -/
def flush (direction : Direction) : Framer β → Framer β
  | .none => .none
  | .fourByte rxBuffer => .fourByte (FourByte.flush direction rxBuffer)
  | .line state => .line (Line.flush direction state)

/-- The bytes of an incomplete frame. -/
def buffered : Framer β → List β
  | .none => []
  | .fourByte rxBuffer => rxBuffer
  | .line state => state.processed ++ state.inProcess

/-! ## What holds of every framer -/

@[simp] theorem addFraming_snd (data : List UInt8) (f : Framer β) : (f.addFraming data).2 = f := by
  cases f <;> rfl

@[simp] theorem buffered_init (m : FramingModule) (args : Line.Args) :
    (init m args : Framer β).buffered = [] := by
  cases m <;> rfl

@[simp] theorem buffered_frameTimeout (f : Framer β) : f.frameTimeout.2.buffered = [] := by
  cases f <;> rfl

theorem buffered_flush (d : Direction) (f : Framer β) :
    (f.flush d).buffered = if d = .transmit then f.buffered else [] := by
  cases f <;> cases d <;> rfl

/-- The messages of a timeout carry what was buffered. -/
theorem bytes_frameTimeout (f : Framer β) :
    ∀ m ∈ f.frameTimeout.1, ∀ b ∈ m.bytes, b ∈ f.buffered := by
  intro m hm b hb
  cases f with
  | none => exact absurd hm (by simp [frameTimeout])
  | fourByte r =>
    obtain rfl : m = .whole r := by simpa [frameTimeout, FourByte.frameTimeout] using hm
    exact hb
  | line s =>
    obtain rfl : m = .part (s.processed ++ s.inProcess) := by
      simpa [frameTimeout, Line.frameTimeout] using hm
    exact hb

theorem frameTimeout_part {f : Framer β} (h : f.buffered ≠ []) : .part [] ∉ f.frameTimeout.1 := by
  cases f with
  | none => exact absurd rfl h
  | fourByte r => simp [frameTimeout, FourByte.frameTimeout]
  | line s =>
    intro hmem
    exact h (by simpa [frameTimeout, Line.frameTimeout, buffered] using hmem)

variable [Octet β]

/-- `remove_framing/2`; `none` when the line framer's loop does not return. -/
def removeFraming (data : List β) : Framer β → Option (Rc × List (Message β) × Framer β)
  | .none => some (.ok, [.whole data], .none)
  | .fourByte rxBuffer =>
    match FourByte.removeFraming data rxBuffer with
    | (rc, messages, rxBuffer') => some (rc, messages, .fourByte rxBuffer')
  | .line state =>
    match Line.removeFraming data state with
    | some (rc, messages, state') => some (rc, messages, .line state')
    | Option.none => Option.none

section removeFraming

variable {data : List β} {f f' : Framer β} {rc : Rc} {ms : List (Message β)}

/-- The three framers' `remove_framing/2` by cases, each through its loop's relation. -/
theorem removeFraming_cases (h : f.removeFraming data = some (rc, ms, f')) :
    (f = .none ∧ f' = .none ∧ rc = .ok ∧ ms = [.whole data]) ∨
    (∃ r r', f = .fourByte r ∧ f' = .fourByte r' ∧ FourByte.Process (r ++ data) ms r' ∧
      rc = if r' = [] then .ok else .inFrame) ∨
    (∃ s s', f = .line s ∧ f' = .line s' ∧ s'.separator = s.separator ∧
      s'.maxLength = s.maxLength ∧ Line.Process s.separator s.maxLength s.processed
        (s.inProcess ++ data) ms s'.processed s'.inProcess ∧
      rc = if Line.bufferEmpty s' then .ok else .inFrame) := by
  cases f with
  | none =>
    simp only [removeFraming, Option.some.injEq, Prod.mk.injEq] at h
    obtain ⟨rfl, rfl, rfl⟩ := h
    exact .inl ⟨rfl, rfl, rfl, rfl⟩
  | fourByte r =>
    simp only [removeFraming, Option.some.injEq, Prod.mk.injEq] at h
    obtain ⟨rfl, rfl, rfl⟩ := h
    have := FourByte.removeFraming_iff.mp (rfl : FourByte.removeFraming data r = _)
    exact .inr (.inl ⟨r, _, rfl, rfl, this.1, this.2⟩)
  | line s =>
    cases hl : Line.removeFraming data s with
    | none => exact absurd h (by simp [removeFraming, hl])
    | some q =>
      obtain ⟨rc₀, ms₀, s'⟩ := q
      simp only [removeFraming, hl, Option.some.injEq, Prod.mk.injEq] at h
      obtain ⟨rfl, rfl, rfl⟩ := h
      obtain ⟨p', t', hp, rfl, hrc⟩ := Line.removeFraming_iff.mp hl
      exact .inr (.inr ⟨s, _, rfl, rfl, rfl, rfl, hp, hrc⟩)

/-- `:in_frame` is returned exactly when bytes stay buffered. -/
theorem removeFraming_rc (h : f.removeFraming data = some (rc, ms, f')) :
    rc = .inFrame ↔ f'.buffered ≠ [] := by
  rcases removeFraming_cases h with ⟨-, rfl, rfl, -⟩ | ⟨r, r', -, rfl, -, rfl⟩ |
    ⟨s, s', -, rfl, -, -, -, rfl⟩
  · simp [buffered]
  · simp [buffered]
  · simp [buffered, Line.bufferEmpty, imp_iff_or_not, or_comm]

/-- No byte is made up. -/
theorem removeFraming_bytes (h : f.removeFraming data = some (rc, ms, f')) :
    ∀ b, b ∈ f'.buffered ∨ (∃ m ∈ ms, b ∈ m.bytes) → b ∈ f.buffered ∨ b ∈ data := by
  intro b hb
  rcases removeFraming_cases h with ⟨rfl, rfl, -, rfl⟩ | ⟨r, r', rfl, rfl, hp, -⟩ |
    ⟨s, s', rfl, rfl, -, -, hp, -⟩
  · right
    simpa [buffered] using hb
  · exact List.mem_append.mp (hp.bytes b hb)
  · have := hp.bytes b hb
    rw [← List.append_assoc] at this
    exact List.mem_append.mp this

/-- `{:partial, <<>>}` is not among the messages. -/
theorem removeFraming_part (h : f.removeFraming data = some (rc, ms, f')) : .part [] ∉ ms := by
  rcases removeFraming_cases h with ⟨-, -, -, rfl⟩ | ⟨r, r', -, -, hp, -⟩ | ⟨s, s', -, -, -, -, hp, -⟩
  · simp
  · exact hp.part_notMem []
  · exact hp.part_ne_nil

end removeFraming

/-- Every framer but `None` reassembles: two pieces of data are one. -/
theorem removeFraming_append {a b : List β} {f f₁ f₂ : Framer β} {rc₁ rc₂ : Rc}
    {ms₁ ms₂ : List (Message β)} (hf : f.framing ≠ .none)
    (h₁ : f.removeFraming a = some (rc₁, ms₁, f₁))
    (h₂ : f₁.removeFraming b = some (rc₂, ms₂, f₂)) :
    f.removeFraming (a ++ b) = some (rc₂, ms₁ ++ ms₂, f₂) := by
  rcases removeFraming_cases h₁ with ⟨rfl, -⟩ | ⟨r, r₁, rfl, rfl, hp₁, -⟩ |
    ⟨s, s₁, rfl, rfl, hsep₁, hmax₁, hp₁, -⟩
  · exact absurd rfl hf
  · rcases removeFraming_cases h₂ with ⟨h, -⟩ | ⟨_, r₂, h, rfl, hp₂, rfl⟩ | ⟨_, _, h, -⟩
    · exact absurd h (by simp)
    · cases h
      have hp := hp₁.append hp₂
      rw [List.append_assoc] at hp
      have := FourByte.removeFraming_iff.mpr ⟨hp, rfl⟩
      simp only [removeFraming, this]
    · exact absurd h (by simp)
  · rcases removeFraming_cases h₂ with ⟨h, -⟩ | ⟨_, _, h, -⟩ |
      ⟨_, s₂, h, rfl, hsep₂, hmax₂, hp₂, rfl⟩
    · exact absurd h (by simp)
    · exact absurd h (by simp)
    · cases h
      rw [hsep₁, hmax₁] at hp₂
      have hp := hp₁.append hp₂
      rw [List.append_assoc] at hp
      have hs₂ : s₂ = { s with processed := s₂.processed, inProcess := s₂.inProcess } := by
        rw [← hsep₁, ← hsep₂, ← hmax₁, ← hmax₂]
      have := Line.removeFraming_iff.mpr ⟨_, _, hp, hs₂, rfl⟩
      simp only [removeFraming, this]

/-- A framer whose `remove_framing/2` returns, whatever it is given: the line framer's
state must satisfy its invariant, which `init/1` with a `max_length` and a separator does. -/
def Usable : Framer β → Prop
  | .none => True
  | .fourByte rxBuffer => rxBuffer.length < 4
  | .line state => state.Ok

theorem exists_removeFraming {f : Framer β} (h : f.Usable) (data : List β) :
    ∃ rc ms f', f.removeFraming data = some (rc, ms, f') ∧ f'.Usable := by
  cases f with
  | none => exact ⟨_, _, _, rfl, trivial⟩
  | fourByte r =>
    obtain ⟨ms, t', hp, hlt⟩ := FourByte.exists_process (r ++ data)
    have := FourByte.removeFraming_iff.mpr ⟨hp, rfl⟩
    exact ⟨if t' = [] then .ok else .inFrame, ms, .fourByte t', by simp only [removeFraming, this],
      hlt⟩
  | line s =>
    obtain ⟨⟨rc, ms, s'⟩, hs⟩ := Option.isSome_iff_exists.mp (Line.State.Ok.isSome h data)
    exact ⟨rc, ms, .line s', by simp only [removeFraming, hs], Line.State.Ok.removeFraming h hs⟩

theorem Usable.removeFraming {data : List β} {f f' : Framer β} {rc : Rc} {ms : List (Message β)}
    (h : f.Usable) (hr : f.removeFraming data = some (rc, ms, f')) : f'.Usable := by
  obtain ⟨rc', ms', f'', hr', hu⟩ := exists_removeFraming h data
  rw [hr] at hr'
  obtain ⟨-, -, rfl⟩ := by simpa using hr'
  exact hu

/-- `init/1` with room for a byte and a separator makes a usable framer. -/
theorem usable_init {m : FramingModule} {args : Line.Args}
    (h : m = .line → 0 < args.maxLength.getD 4096 ∧ args.separator.getD [10] ≠ []) :
    (init m args : Framer β).Usable := by
  cases m with
  | none => trivial
  | fourByte => exact Nat.succ_pos 3
  | line => exact Line.init_ok (h rfl).1 (h rfl).2

/-- Nothing received, nothing done. -/
theorem removeFraming_nil {f : Framer β} (hf : f.framing ≠ .none) (h : f.Usable) :
    f.removeFraming [] = some (if f.buffered = [] then .ok else .inFrame, [], f) := by
  cases f with
  | none => exact absurd rfl hf
  | fourByte r =>
    have hp : FourByte.Process (r ++ []) [] r := by
      rw [List.append_nil]
      exact .short h
    have := FourByte.removeFraming_iff.mpr ⟨hp, rfl⟩
    simp only [removeFraming, this]
    rfl
  | line s =>
    have hp : Line.Process s.separator s.maxLength s.processed (s.inProcess ++ []) []
        s.processed s.inProcess := by
      rw [List.append_nil]
      exact .wait (Line.State.Ok.short h)
    have := Line.removeFraming_iff.mpr ⟨_, _, hp, rfl, rfl⟩
    simp only [removeFraming, this]
    simp [buffered, Line.bufferEmpty]

end Framer

end CircuitsUart
