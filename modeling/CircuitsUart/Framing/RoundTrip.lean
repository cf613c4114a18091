import CircuitsUart.Framing.LineRun

/-!
# What is framed is what is unframed

`add_framing/2` on one side of the line, `remove_framing/2` on the other. A message comes
back whole when it fits a line and the first separator in the framed message is the one
behind it: no separator begins inside the message, not even one that ends in the separator
that was added.

That last condition is why `Clean` looks at the message with all but one byte of the
separator behind it. With `"\r\r"` as the separator, a message that ends in `"\r"` holds no
separator, and still comes back without its last byte.

The proof is about the loop and not about splits. `Process.message` takes one clean message
through the loop, whatever is behind it, and the stream of all of them is an induction on the
messages. How the stream is cut does not come up: `removeAll_splits` has dealt with it.
-/

set_option autoImplicit false

namespace CircuitsUart.Line

open Lib

/-! ## Framing messages -/

/-- Successive `add_framing/2` calls: what they return, concatenated, and the last state. -/
def addAll {β : Type} : List (List UInt8) → State β → List UInt8 × State β
  | [], s => ([], s)
  | m :: ms, s =>
    let (framed, s') := addFraming m s
    let (rest, s'') := addAll ms s'
    (framed ++ rest, s'')

theorem addAll_eq {β : Type} (messages : List (List UInt8)) (s : State β) :
    addAll messages s = (messages.flatMap (· ++ s.separator), s) := by
  induction messages with
  | nil => rfl
  | cons m ms ih => simp only [addAll, addFraming, ih, List.flatMap_cons]

/-- The separator does not occur in the message followed by the separator without its last
byte. -/
def Clean (sep m : List UInt8) : Prop := ¬ sep <:+: m ++ sep.dropLast

instance (sep m : List UInt8) : Decidable (Clean sep m) := inferInstanceAs (Decidable (¬ _))

/-! ## Unframing them -/

section process

variable {sep : List UInt8} {max : Nat} {p' t' : List UInt8} {ms : List (Message UInt8)}

theorem startsWith_val_iff {t : List UInt8} : StartsWith Octet.val sep t ↔ sep <+: t := by
  unfold StartsWith
  rw [show (Octet.val : UInt8 → UInt8) = id from rfl, List.map_id, List.prefix_iff_eq_take]
  exact eq_comm

/-- With a byte of a clean message ahead, no separator begins here. -/
theorem Clean.not_prefix {b : UInt8} {m rest : List UInt8} (clean : Clean sep (b :: m)) :
    ¬ sep <+: b :: m ++ (sep ++ rest) := by
  intro here
  apply clean
  have enough : sep.length ≤ (b :: m ++ sep.dropLast).length := by
    simp only [List.length_append, List.length_cons, List.length_dropLast]
    omega
  have cut : b :: m ++ sep.dropLast <+: b :: m ++ (sep ++ rest) :=
    (List.prefix_append_right_inj _).mpr ((List.dropLast_prefix sep).trans (List.prefix_append _ _))
  exact (List.prefix_of_prefix_length_le here cut enough).isInfix

theorem Clean.tail {b : UInt8} {m : List UInt8} (clean : Clean sep (b :: m)) : Clean sep m :=
  fun inside => clean (inside.trans (List.suffix_cons b _).isInfix)

/-- **One message.** The loop takes the bytes of a clean message that fits the line one by
one, meets the separator, and reports the message whole. -/
theorem Process.message {m rest : List UInt8} (clean : Clean sep m) :
    ∀ {p : List UInt8}, p.length + m.length ≤ max → Process sep max [] rest ms p' t' →
      Process sep max p (m ++ (sep ++ rest)) (.whole (p ++ m) :: ms) p' t' := by
  induction m with
  | nil =>
    intro p _ go
    rw [List.nil_append, List.append_nil]
    apply Process.separator
    · exact startsWith_val_iff.mpr (List.prefix_append sep rest)
    · rwa [List.drop_left]
  | cons b m ih =>
    intro p fits go
    rw [List.length_cons] at fits
    apply Process.next
    · show sep.length ≤ (b :: m ++ (sep ++ rest)).length
      simp only [List.length_append, List.length_cons]
      omega
    · intro here
      exact clean.not_prefix (startsWith_val_iff.mp here)
    · -- a line that is full has had its last byte, and the separator is looked for first
      omega
    · have tail := ih clean.tail (p := p ++ [b]) (by simp; omega) go
      rwa [List.append_assoc, List.singleton_append] at tail

/-- The loop takes a stream of framed messages apart and leaves nothing. -/
theorem Process.messages (hsep : sep ≠ []) {messages : List (List UInt8)}
    (fits : ∀ m ∈ messages, m.length ≤ max) (clean : ∀ m ∈ messages, Clean sep m) :
    Process sep max [] (messages.flatMap (· ++ sep)) (messages.map .whole) [] [] := by
  induction messages with
  | nil => exact .wait (List.length_pos_iff.mpr hsep)
  | cons m ms ih =>
    have rest := ih (fun m' hm => fits m' (by simp [hm])) (fun m' hm => clean m' (by simp [hm]))
    have fitting : ([] : List UInt8).length + m.length ≤ max := by simpa using fits m (by simp)
    have one := Process.message (clean m (by simp)) fitting rest
    rwa [List.flatMap_cons, List.append_assoc]

end process

/-- **Line framing round trip.** Frame messages that fit a line and hold no separator, cut
what comes out in any way, and hand the pieces to successive `remove_framing/2` calls: they
return the messages, whole and in order, the last one returns `:ok`, and nothing is left in
the buffer. `add_framing/2` has left the state as it was. -/
theorem removeAll_addAll {separator : List UInt8} {maxLength : Nat} (hsep : separator ≠ [])
    (hmax : 1 ≤ maxLength) (lines : List (List UInt8))
    (fits : ∀ m ∈ lines, m.length ≤ maxLength) (clean : ∀ m ∈ lines, Clean separator m)
    (chunks : List (List UInt8)) :
    let s₀ : State UInt8 := init ⟨some maxLength, some separator⟩
    (∀ (m : List UInt8) (s : State UInt8), (addFraming m s).2 = s) ∧
    (addAll lines s₀).2 = s₀ ∧
    (chunks.flatten = (addAll lines s₀).1 →
      ∃ results, removeAll chunks s₀ = some results ∧
        messages results = lines.map .whole ∧
        lastState s₀ results = s₀ ∧
        bufferEmpty (lastState s₀ results) = true ∧
        ∀ r ∈ results.getLast?, r.1 = .ok) := by
  intro s₀
  refine ⟨fun m s => rfl, by rw [addAll_eq], fun cut => ?_⟩
  rw [addAll_eq] at cut
  let f₀ : Framer UInt8 := ⟨s₀, init_ok hmax hsep⟩
  obtain ⟨results, hres, hms, hlast, hrc⟩ := removeAll_eq_feedAll chunks f₀
  rw [Framer.chunked.feedAll_eq chunks trivial] at hms hlast
  have hp : Process f₀.state.separator f₀.state.maxLength f₀.state.processed
      (f₀.state.inProcess ++ chunks.flatten) (lines.map .whole) [] [] := by
    rw [cut]
    exact Process.messages hsep fits clean
  obtain ⟨hok, heq⟩ := Framer.removeFraming_of_process hp
  simp only [Framer.feed, heq] at hms hlast
  have hlast' : lastState s₀ results = s₀ := hlast
  refine ⟨results, hres, hms, hlast', by rw [hlast']; rfl, fun r hr => ?_⟩
  have hmem := List.mem_of_getLast? (Option.mem_def.mp hr)
  have hstate : lastState s₀ results = r.2.2 := by
    rw [lastState, Option.mem_def.mp hr]
    rfl
  rw [hlast'] at hstate
  apply (hrc r hmem).mpr
  rw [← hstate]
  exact ⟨rfl, rfl⟩

/-- A blank message and one of exactly `max_length` bytes, with a separator that is cut. -/
theorem removeAll_addAll_fullLine :
    removeAll [[65, 66, 13], [10, 13], [10]] (init ⟨some 2, some [13, 10]⟩ : State UInt8) =
        some [(.inFrame, [], ⟨2, [13, 10], [65, 66], [13]⟩),
          (.inFrame, [.whole [65, 66]], ⟨2, [13, 10], [], [13]⟩),
          (.ok, [.whole []], ⟨2, [13, 10], [], []⟩)] ∧
      ∃ results, removeAll [[65, 66, 13], [10, 13], [10]]
          (init ⟨some 2, some [13, 10]⟩ : State UInt8) = some results ∧
        messages results = [.whole [65, 66], .whole []] := by
  refine ⟨by decide, ?_⟩
  obtain ⟨-, -, back⟩ := @removeAll_addAll [13, 10] 2 (by decide) (by decide) [[65, 66], []]
    (by decide) (by decide) [[65, 66, 13], [10, 13], [10]]
  obtain ⟨results, h, hms, -⟩ := back (by decide)
  exact ⟨results, h, hms⟩

end CircuitsUart.Line
