import CircuitsUart.Framing.Operations

/-!
# Batches of four bytes

`FourByte` has no separator to look for: its buffer is what is left of the bytes received since
the grid of four was last set off, by `init/1`, a timeout or a flush. So the whole of its state is
a list shorter than a batch, and nothing that is received is lost to the cutting.

`InBatches` is the invariant of its life, over the same operations and labels as the line framer's
(`Framing.Operations`). It speaks of what was told as well as of the buffer, because conservation
is about both: what was taken in is what was given out, with the buffer behind it.

A timeout hands up what is buffered as if it were a message, of whatever length. The account has
that under its own label, so "every message reported has four bytes" stays true of it.
-/

set_option autoImplicit false

namespace CircuitsUart

open Lib

variable {β : Type}

namespace FourByte

/-- The messages and the buffer of `remove_framing/2`. -/
def feed (data rxBuffer : List β) : List (Message β) × List β :=
  ((removeFraming data rxBuffer).2.1, (removeFraming data rxBuffer).2.2)

section process

variable {t t' : List β} {ms : List (Message β)}

theorem Process.short_rest (h : Process t ms t') : t'.length < 4 := by
  induction h with
  | short lt => exact lt
  | batch _ ih => exact ih

theorem Process.batches (h : Process t ms t') :
    ∀ m ∈ ms, ∃ batch, m = .whole batch ∧ batch.length = 4 := by
  induction h with
  | short _ => simp
  | @batch a b c d _ _ _ _ ih =>
    intro m hm
    rcases List.mem_cons.mp hm with rfl | hm
    · exact ⟨[a, b, c, d], rfl, rfl⟩
    · exact ih m hm

/-- The messages and what is kept are what was there. -/
theorem Process.conserved [Octet β] (h : Process t ms t') :
    (ms.map Told.reported).flatMap (Told.given []) ++ t'.map Octet.val = t.map Octet.val := by
  induction h with
  | short _ => rfl
  | batch _ ih =>
    rw [List.map_cons, List.flatMap_cons, List.append_assoc, ih]
    rfl

/-- What `remove_framing/2` returns. -/
theorem process_feed (data rxBuffer : List β) :
    Process (rxBuffer ++ data) (feed data rxBuffer).1 (feed data rxBuffer).2 :=
  (removeFraming_iff.mp (rfl : removeFraming data rxBuffer = _)).1

theorem Process.feed_eq {data rxBuffer t' : List β} {ms : List (Message β)}
    (h : Process (rxBuffer ++ data) ms t') : feed data rxBuffer = (ms, t') := by
  rw [feed, removeFraming_iff.mpr ⟨h, rfl⟩]

end process

/-- `:ok` says that nothing is buffered. -/
theorem removeFraming_ok_iff (data rxBuffer : List β) :
    (removeFraming data rxBuffer).1 = .ok ↔ (feed data rxBuffer).2 = [] := by
  have rc : (removeFraming data rxBuffer).1 =
      if (feed data rxBuffer).2 = [] then .ok else .inFrame :=
    (removeFraming_iff.mp (rfl : removeFraming data rxBuffer = _)).2
  rw [rc]
  split
  · next empty => simp [empty]
  · next kept => simp [kept]

/-- **Where the data is cut does not matter.** -/
theorem chunked : Chunked (feed (β := β)) (fun rxBuffer => rxBuffer.length < 4) where
  keep data rxBuffer _ := (process_feed data rxBuffer).short_rest
  nil rxBuffer short := by
    apply Process.feed_eq
    rw [List.append_nil]
    exact .short short
  append a b rxBuffer _ := by
    apply Process.feed_eq
    rw [← List.append_assoc]
    exact (process_feed a rxBuffer).append (process_feed b _)

end FourByte

namespace Framer

variable [Octet β]

/-- What holds of the buffer and of all that was told since `init/1`. -/
structure InBatches (h : List (Told β)) (rxBuffer : List β) : Prop where
  short : rxBuffer.length < 4
  batches : ∀ m, .reported m ∈ h → ∃ batch, m = .whole batch ∧ batch.length = 4
  conserved : h.flatMap (Told.given []) ++ rxBuffer.map Octet.val = h.flatMap Told.taken

/-- Reporting nothing, and accounting for what leaves the buffer. -/
theorem InBatches.tell {h out : List (Told β)} {rxBuffer rxBuffer' : List β}
    (k : InBatches h rxBuffer) (short : rxBuffer'.length < 4) (silent : ∀ m, .reported m ∉ out)
    (bytes : out.flatMap (Told.given []) ++ rxBuffer'.map Octet.val = rxBuffer.map Octet.val)
    (taken : out.flatMap Told.taken = []) : InBatches (h ++ out) rxBuffer' where
  short := short
  batches m hm := by
    rcases List.mem_append.mp hm with hm | hm
    · exact k.batches m hm
    · exact absurd hm (silent m)
  conserved := by
    rw [List.flatMap_append, List.flatMap_append, taken, List.append_nil, List.append_assoc, bytes]
    exact k.conserved

theorem InBatches.after_removeFraming {h : List (Told β)} {rxBuffer : List β}
    (k : InBatches h rxBuffer) (data : List β) :
    InBatches (h ++ .received data :: (FourByte.feed data rxBuffer).1.map .reported)
      (FourByte.feed data rxBuffer).2 := by
  have process := FourByte.process_feed data rxBuffer
  refine ⟨process.short_rest, ?_, ?_⟩
  · intro m hm
    rcases List.mem_append.mp hm with hm | hm
    · exact k.batches m hm
    · exact process.batches m (by simpa using hm)
  · have reported : ((FourByte.feed data rxBuffer).1.map Told.reported).flatMap
        (Told.taken (β := β)) = [] := by
      simp [List.flatMap_eq_nil_iff, Told.taken]
    have conserved := process.conserved
    rw [List.map_append] at conserved
    rw [List.flatMap_append, List.flatMap_append, List.flatMap_cons, List.flatMap_cons, reported,
      ← k.conserved, List.append_nil, List.append_assoc, List.append_assoc, List.append_assoc]
    exact congrArg (h.flatMap (Told.given []) ++ ·) conserved

/-- One operation. -/
theorem InBatches.after_operate {h : List (Told β)} {rxBuffer : List β}
    (k : InBatches h rxBuffer) (op : Op β) :
    ∃ rxBuffer' out, operate (.fourByte rxBuffer) op = some (.fourByte rxBuffer', out) ∧
      InBatches (h ++ out) rxBuffer' := by
  have empty : ([] : List β).length < 4 := Nat.succ_pos 3
  cases op with
  | addFraming data =>
    exact ⟨rxBuffer, _, rfl, k.tell k.short (by simp) (by simp [Told.given]) (by simp [Told.taken])⟩
  | removeFraming data => exact ⟨_, _, rfl, k.after_removeFraming data⟩
  | frameTimeout =>
    exact ⟨[], _, rfl, k.tell empty (by simp [frameTimeout])
      (by simp [frameTimeout, FourByte.frameTimeout, Told.given])
      (by simp [frameTimeout, FourByte.frameTimeout, Told.taken])⟩
  | flush direction =>
    cases direction with
    | transmit =>
      exact ⟨rxBuffer, _, rfl,
        k.tell k.short (by simp) (by simp [Told.given]) (by simp [Told.taken])⟩
    | receive =>
      exact ⟨[], _, rfl,
        k.tell empty (by simp) (by simp [Told.given, buffered]) (by simp [Told.taken])⟩
    | both =>
      exact ⟨[], _, rfl,
        k.tell empty (by simp) (by simp [Told.given, buffered]) (by simp [Told.taken])⟩

/-- A list of operations. -/
theorem InBatches.after_operations (ops : List (Op β)) {h : List (Told β)} {rxBuffer : List β}
    (k : InBatches h rxBuffer) :
    ∃ rxBuffer' out, exec operate (.fourByte rxBuffer) ops = some (.fourByte rxBuffer', out) ∧
      InBatches (h ++ out) rxBuffer' := by
  have keeps : ∀ (h : List (Told β)) (f : Framer β) (op : Op β),
      (∃ rxBuffer, f = .fourByte rxBuffer ∧ InBatches h rxBuffer) →
        ∃ f' out, f.operate op = some (f', out) ∧
          ∃ rxBuffer, f' = .fourByte rxBuffer ∧ InBatches (h ++ out) rxBuffer := by
    rintro h _ op ⟨rxBuffer, rfl, k⟩
    obtain ⟨rxBuffer', out, took, k'⟩ := k.after_operate op
    exact ⟨.fourByte rxBuffer', out, took, rxBuffer', rfl, k'⟩
  obtain ⟨_, out, ran, rxBuffer', rfl, k'⟩ := exec_of_keeps keeps ops ⟨rxBuffer, rfl, k⟩
  exact ⟨rxBuffer', out, ran, k'⟩

/-- **Four-byte framing is exact.** After any operations from `init`, fewer than four bytes are
buffered and every message reported has four; what was received is what was reported, timed out
and flushed, in order, with the buffer last. From there on, `remove_framing` returns `:ok` exactly
when it leaves the buffer empty, and any pieces of data are as good as all of it at once. -/
theorem batches_exact (args : Line.Args) (ops : List (Op β)) :
    ∃ rxBuffer h, exec operate (init .fourByte args) ops = some (.fourByte rxBuffer, h) ∧
      rxBuffer.length < 4 ∧
      (∀ m, .reported m ∈ h → ∃ batch, m = .whole batch ∧ batch.length = 4) ∧
      h.flatMap (Told.given []) ++ rxBuffer.map Octet.val = h.flatMap Told.taken ∧
      (∀ data, (FourByte.removeFraming data rxBuffer).1 = .ok ↔
        (FourByte.removeFraming data rxBuffer).2.2 = []) ∧
      ∀ pieces, feedAll FourByte.feed pieces rxBuffer = FourByte.feed pieces.flatten rxBuffer := by
  have hinit : InBatches ([] : List (Told β)) [] := ⟨Nat.succ_pos 3, by simp, rfl⟩
  obtain ⟨rxBuffer, h, hops, k⟩ := hinit.after_operations ops
  exact ⟨rxBuffer, h, hops, k.short, k.batches, k.conserved,
    fun data => FourByte.removeFraming_ok_iff data rxBuffer,
    fun pieces => FourByte.chunked.feedAll_eq pieces k.short⟩

end Framer

end CircuitsUart
