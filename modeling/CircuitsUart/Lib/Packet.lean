import Mathlib

/-!
# Packets in a stream

A packet begins with a header of a fixed length, and its whole length can be read off the
header. So what has arrived of a stream decides whether its first packet is complete and
where it ends, and nothing behind it matters.

A `Packet` is no more than those two numbers; that a packet is at least its header is part of what
it is for a list to be `Whole`. The two lemmas are the two halves of reading a stream in pieces.
`take_header`: the header is read alike from a buffer that ends in the middle of the packet and
from one that goes beyond it. `take_front`: once the buffer is as long as the header says, its
front is the packet.
-/

set_option autoImplicit false

namespace CircuitsUart.Lib

variable {α : Type}

/-- A kind of packet: the length of the header, and the length of the packet, header
included, as the header gives it. -/
structure Packet (α : Type) where
  header : Nat
  size : List α → Nat

namespace Packet

variable {k : Packet α} {p s t r : List α}

/-- Exactly one packet. -/
def Whole (k : Packet α) (p : List α) : Prop :=
  k.header ≤ p.length ∧ k.size (p.take k.header) = p.length

/-- The header of a packet that goes beyond `s` or ends in it is read off `s`. -/
theorem take_header (whole : k.Whole p) (stream : s ++ t = p ++ r) (here : k.header ≤ s.length) :
    s.take k.header = p.take k.header := by
  have hs : (s ++ t).take k.header = s.take k.header := List.take_append_of_le_length here
  have hp : (p ++ r).take k.header = p.take k.header := List.take_append_of_le_length whole.1
  rw [← hs, stream, hp]

/-- A packet that has arrived is at the front. -/
theorem take_front (stream : s ++ t = p ++ r) (arrived : p.length ≤ s.length) :
    s.take p.length = p ∧ s.drop p.length ++ t = r := by
  have hs : (s ++ t).take p.length = s.take p.length := List.take_append_of_le_length arrived
  constructor
  · rw [← hs, stream, List.take_left]
  · rw [← List.drop_append_of_le_length arrived, stream, List.drop_left]

end Packet

end CircuitsUart.Lib
