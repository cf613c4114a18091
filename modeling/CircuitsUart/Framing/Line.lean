import CircuitsUart.Framing.Basic

/-!
# `Circuits.UART.Framing.Line`

The line framer, from `lib/uart/framing/line.ex`, and the first things to know about it.

`process_data/6` is a tail-recursive loop that need not end: with `max_length` 0 the
"line too long" branch consumes nothing. The model therefore runs it on fuel and answers
`none` when the fuel is spent.

Proofs about the loop do not go through fuel or through its accumulator. They are
inductions over `Process`, the loop's big-step semantics with one constructor for each
branch of the source. `removeFraming_iff` says the two are the same: the fuel
`removeFraming` takes is enough for every run of the loop that ends, so its `none` means
that the source's loop does not return. `exists_process` says that with a positive
`max_length` and a separator it always does.
-/

set_option autoImplicit false

namespace CircuitsUart.Line

open Lib

variable {β : Type} [Octet β]

/-! ## The source -/

/-- `Line.init/1`'s keyword arguments; an absent one takes its default. -/
structure Args where
  maxLength : Option Nat := none
  separator : Option (List UInt8) := none
  deriving DecidableEq, Repr

/-- `%Line.State{}`. -/
structure State (β : Type) where
  maxLength : Nat
  separator : List UInt8
  processed : List β := []
  inProcess : List β := []
  deriving DecidableEq, Repr

/-- `init/1`: the defaults are 4096 and `"\n"`. -/
def init (args : Args) : State β :=
  { maxLength := args.maxLength.getD 4096, separator := args.separator.getD [10] }

/-- `add_framing/2`. -/
def addFraming (data : List UInt8) (s : State β) : List UInt8 × State β :=
  (data ++ s.separator, s)

/-- `process_data/6`, on fuel. The branches are the source's, in its order: not enough
data, separator, line too long, next character. -/
def processData (separator : List UInt8) (maxLength : Nat) :
    Nat → List β → List β → List (Message β) → Option (List β × List β × List (Message β))
  | 0, _, _, _ => none
  | fuel + 1, processed, toProcess, lines =>
    if toProcess.length < separator.length then
      some (processed, toProcess, lines)
    else if StartsWith Octet.val separator toProcess then
      processData separator maxLength fuel [] (toProcess.drop separator.length)
        (lines ++ [.whole processed])
    else if processed.length = maxLength ∧ toProcess ≠ [] then
      processData separator maxLength fuel [] toProcess (lines ++ [.part processed])
    else
      match toProcess with
      | [] => none
      | nextChar :: rest =>
        processData separator maxLength fuel (processed ++ [nextChar]) rest lines

/-- `buffer_empty?/1`. -/
def bufferEmpty (s : State β) : Bool := s.processed.isEmpty && s.inProcess.isEmpty

/-- `remove_framing/2`; `none` when the loop does not return. -/
def removeFraming (data : List β) (s : State β) : Option (Rc × List (Message β) × State β) :=
  let toProcess := s.inProcess ++ data
  match processData s.separator s.maxLength (2 * toProcess.length + 2) s.processed toProcess []
  with
  | none => none
  | some (newProcessed, newInProcess, lines) =>
    let newState := { s with processed := newProcessed, inProcess := newInProcess }
    some (if bufferEmpty newState then .ok else .inFrame, lines, newState)

/-- `frame_timeout/1`. -/
def frameTimeout (s : State β) : List (Message β) × State β :=
  ([.part (s.processed ++ s.inProcess)], { s with processed := [], inProcess := [] })

/-- `flush/2`. -/
def flush : Direction → State β → State β
  | .receive, s => { s with processed := [], inProcess := [] }
  | .both, s => { s with processed := [], inProcess := [] }
  | .transmit, s => s

/-! ## The loop as a relation -/

/-- `Process sep max p t ms p' t'`: from `processed = p` and `to_process = t` the loop
reports `ms` and stops with `processed = p'` and `to_process = t'`. -/
inductive Process (sep : List UInt8) (max : Nat) :
    List β → List β → List (Message β) → List β → List β → Prop
  | wait {p t : List β} (short : t.length < sep.length) : Process sep max p t [] p t
  | separator {p t p' t' : List β} {ms : List (Message β)} (here : StartsWith Octet.val sep t)
      (go : Process sep max [] (t.drop sep.length) ms p' t') :
      Process sep max p t (.whole p :: ms) p' t'
  | tooLong {p t p' t' : List β} {ms : List (Message β)} (long : sep.length ≤ t.length)
      (not_here : ¬ StartsWith Octet.val sep t) (full : p.length = max)
      (go : Process sep max [] t ms p' t') : Process sep max p t (.part p :: ms) p' t'
  | next {p rest p' t' : List β} {b : β} {ms : List (Message β)}
      (long : sep.length ≤ (b :: rest).length) (not_here : ¬ StartsWith Octet.val sep (b :: rest))
      (room : p.length ≠ max) (go : Process sep max (p ++ [b]) rest ms p' t') :
      Process sep max p (b :: rest) ms p' t'

/-- A stream that begins with no separator is not empty. -/
theorem ne_nil_of_not_startsWith {sep : List UInt8} {t : List β} (hl : sep.length ≤ t.length)
    (h : ¬ StartsWith Octet.val sep t) : t ≠ [] := by
  rintro rfl
  have hsep : sep = [] := List.length_eq_zero_iff.mp (by simpa using hl)
  exact h (by simp [StartsWith, hsep])

/-- One turn of the loop, whatever is left to process. -/
theorem processData_succ (sep : List UInt8) (max fuel : Nat) (p t : List β)
    (acc : List (Message β)) :
    processData sep max (fuel + 1) p t acc =
      if t.length < sep.length then some (p, t, acc)
      else if StartsWith Octet.val sep t then
        processData sep max fuel [] (t.drop sep.length) (acc ++ [.whole p])
      else if p.length = max ∧ t ≠ [] then processData sep max fuel [] t (acc ++ [.part p])
      else match t with
        | [] => none
        | b :: rest => processData sep max fuel (p ++ [b]) rest acc := by
  rw [processData.eq_def]

/-- What the fuelled loop answers, the relation derives. -/
theorem process_of_processData {sep : List UInt8} {max : Nat} {fuel : Nat} :
    ∀ {p t p' t' : List β} {acc out : List (Message β)},
      processData sep max fuel p t acc = some (p', t', out) →
      ∃ ms, out = acc ++ ms ∧ Process sep max p t ms p' t' := by
  induction fuel with
  | zero => intro p t p' t' acc out h; simp [processData] at h
  | succ fuel ih =>
    intro p t p' t' acc out h
    rw [processData_succ] at h
    split at h
    · next hshort =>
      simp only [Option.some.injEq, Prod.mk.injEq] at h
      obtain ⟨rfl, rfl, rfl⟩ := h
      exact ⟨[], by simp, .wait hshort⟩
    · next hlong =>
      split at h
      · next hhere =>
        obtain ⟨ms, rfl, hgo⟩ := ih h
        exact ⟨.whole p :: ms, by simp, .separator hhere hgo⟩
      · next hnot =>
        split at h
        · next hfull =>
          obtain ⟨ms, rfl, hgo⟩ := ih h
          exact ⟨.part p :: ms, by simp, .tooLong (by omega) hnot hfull.1 hgo⟩
        · next hroom =>
          cases t with
          | nil => exact absurd h (by simp)
          | cons b rest =>
            obtain ⟨ms, rfl, hgo⟩ := ih h
            exact ⟨ms, rfl, .next (by omega) hnot (fun hp => hroom ⟨hp, by simp⟩) hgo⟩

/-- An empty separator matches everywhere, so the loop has no way out. -/
theorem Process.sep_ne_nil {sep : List UInt8} {max : Nat} {p t p' t' : List β}
    {ms : List (Message β)} (h : Process sep max p t ms p' t') : sep ≠ [] := by
  induction h with
  | wait short => rintro rfl; exact absurd short (by simp)
  | separator _ _ ih => exact ih
  | tooLong _ _ _ _ ih => exact ih
  | next _ _ _ _ ih => exact ih

/-- With `max_length` 0 the "line too long" branch comes back to the state it left. -/
theorem Process.not_zero {sep : List UInt8} {max : Nat} {p t p' t' : List β}
    {ms : List (Message β)} (h : Process sep max p t ms p' t') (hmax : max = 0) (hp : p = [])
    (long : sep.length ≤ t.length) (not_here : ¬ StartsWith Octet.val sep t) : False := by
  induction h with
  | wait short => omega
  | separator here _ _ => exact not_here here
  | tooLong _ _ _ _ ih => exact ih rfl long not_here
  | next _ _ room _ _ => exact room (by simp [hp, hmax])

/-- The turns the loop can still take: each byte is consumed once, and a full `processed`
is reported once before the next byte is. -/
def turns (max : Nat) (p t : List β) : Nat := 2 * t.length + if p.length = max then 1 else 0

omit [Octet β] in
theorem turns_le (max : Nat) (p t : List β) : turns max p t ≤ 2 * t.length + 1 := by
  unfold turns; split <;> omega

/-- What the relation derives, the loop answers on any fuel above `turns`. -/
theorem processData_of_process {sep : List UInt8} {max : Nat} {p t p' t' : List β}
    {ms : List (Message β)} (h : Process sep max p t ms p' t') :
    ∀ {fuel : Nat} {acc : List (Message β)}, turns max p t < fuel →
      processData sep max fuel p t acc = some (p', t', acc ++ ms) := by
  induction h with
  | wait short =>
    intro fuel acc hf
    obtain ⟨fuel, rfl⟩ := Nat.exists_eq_add_of_lt hf
    simp [processData_succ, short]
  | @separator p t p' t' ms here go ih =>
    intro fuel acc hf
    have hle := here.length_le
    have hsep : 0 < sep.length := List.length_pos_iff.mpr go.sep_ne_nil
    cases fuel with
    | zero => exact absurd hf (by omega)
    | succ fuel =>
      rw [processData_succ, if_neg (by omega), if_pos here, ih, List.append_assoc]
      · rfl
      · have := turns_le max [] (t.drop sep.length)
        simp only [List.length_drop] at this
        unfold turns at hf
        omega
  | @tooLong p t p' t' ms long not_here full go ih =>
    intro fuel acc hf
    have hmax : 0 < max := Nat.pos_of_ne_zero fun h0 => go.not_zero h0 rfl long not_here
    cases fuel with
    | zero => exact absurd hf (by omega)
    | succ fuel =>
      rw [processData_succ, if_neg (by omega), if_neg not_here,
        if_pos ⟨full, ne_nil_of_not_startsWith long not_here⟩, ih, List.append_assoc]
      · rfl
      · have hnew : turns max ([] : List β) t = 2 * t.length := by
          rw [turns, if_neg (by simp; omega), Nat.add_zero]
        rw [turns, if_pos full] at hf
        omega
  | @next p rest p' t' b ms long not_here room go ih =>
    intro fuel acc hf
    cases fuel with
    | zero => exact absurd hf (by omega)
    | succ fuel =>
      rw [processData_succ, if_neg (by omega), if_neg not_here, if_neg (fun h => room h.1)]
      refine ih ?_
      have := turns_le max (p ++ [b]) rest
      unfold turns at hf
      simp only [List.length_cons] at hf
      omega

/-- The loop ends, when a line has room for at least one byte. -/
theorem exists_process {sep : List UInt8} {max : Nat} (hsep : sep ≠ []) (hmax : 0 < max) :
    ∀ (n : Nat) (p t : List β), turns max p t < n →
      ∃ ms p' t', Process sep max p t ms p' t' := by
  intro n
  induction n with
  | zero => intro p t h; exact absurd h (by omega)
  | succ n ih =>
    intro p t hn
    by_cases hshort : t.length < sep.length
    · exact ⟨[], p, t, .wait hshort⟩
    by_cases hhere : StartsWith Octet.val sep t
    · have hpos : 0 < sep.length := List.length_pos_iff.mpr hsep
      obtain ⟨ms, p', t', h⟩ := ih [] (t.drop sep.length) (by
        have := turns_le max [] (t.drop sep.length)
        simp only [List.length_drop] at this
        unfold turns at hn
        omega)
      exact ⟨_, _, _, .separator hhere h⟩
    by_cases hfull : p.length = max
    · obtain ⟨ms, p', t', h⟩ := ih [] t (by
        rw [turns, if_pos hfull] at hn
        rw [turns, if_neg (by simp; omega)]
        omega)
      exact ⟨_, _, _, .tooLong (by omega) hhere hfull h⟩
    · cases t with
      | nil => exact absurd rfl (ne_nil_of_not_startsWith (by omega) hhere)
      | cons b rest =>
        obtain ⟨ms, p', t', h⟩ := ih (p ++ [b]) rest (by
          have := turns_le max (p ++ [b]) rest
          unfold turns at hn
          simp only [List.length_cons] at hn
          omega)
        exact ⟨_, _, _, .next (by omega) hhere hfull h⟩

/-- `remove_framing/2` is the relation, run from the buffer with the new data behind it. -/
theorem removeFraming_iff {data : List β} {s s' : State β} {rc : Rc} {ms : List (Message β)} :
    removeFraming data s = some (rc, ms, s') ↔
      ∃ p' t', Process s.separator s.maxLength s.processed (s.inProcess ++ data) ms p' t' ∧
        s' = { s with processed := p', inProcess := t' } ∧
        rc = if bufferEmpty s' then .ok else .inFrame := by
  unfold removeFraming
  constructor
  · intro h
    dsimp only at h
    split at h
    · exact absurd h (by simp)
    · next p' t' out heq =>
      obtain ⟨ms', rfl, hp⟩ := process_of_processData heq
      simp only [Option.some.injEq, Prod.mk.injEq] at h
      obtain ⟨rfl, rfl, rfl⟩ := h
      exact ⟨p', t', hp, rfl, rfl⟩
  · rintro ⟨p', t', hp, rfl, rfl⟩
    have hfuel := turns_le s.maxLength s.processed (s.inProcess ++ data)
    have heq : processData s.separator s.maxLength (2 * (s.inProcess ++ data).length + 2)
        s.processed (s.inProcess ++ data) [] = some (p', t', [] ++ ms) :=
      processData_of_process hp (by omega)
    dsimp only
    rw [heq]
    rfl

end CircuitsUart.Line
