import CircuitsUart.Lib.Feed
import CircuitsUart.Lib.Separator

/-!
# What a framer is

The vocabulary of `Circuits.UART.Framing`: the return code of `remove_framing/2`, the
messages it produces and the direction `flush/2` is given.

Received data is a list over any type of bytes `β` with a byte value (`Octet`). The
framers only ever look at a byte's value, to compare it with a separator, so nothing is
lost by letting a byte carry more: a run can label every byte with where it was read, and
the same definitions say where each byte ends up.

Data to be sent has no such type. It is `List UInt8` everywhere, because nothing that is
sent is ever looked for again on this side of the line.
-/

set_option autoImplicit false

namespace CircuitsUart

/-- A type of received bytes: each has a value, and may carry more. -/
class Octet (β : Type) where
  val : β → UInt8

instance : Octet UInt8 := ⟨id⟩

/-- The first element of what `remove_framing/2` returns. -/
inductive Rc
  | ok
  | inFrame
  deriving DecidableEq, Repr

/-- A message handed up by a framer: a binary, or `{:partial, binary}`. -/
inductive Message (β : Type)
  | whole (data : List β)
  | part (data : List β)
  deriving DecidableEq, Repr

/-- The bytes of a message, whichever kind it is. -/
def Message.bytes {β : Type} : Message β → List β
  | .whole d => d
  | .part d => d

@[simp] theorem Message.bytes_whole {β : Type} (d : List β) : (Message.whole d).bytes = d := rfl
@[simp] theorem Message.bytes_part {β : Type} (d : List β) : (Message.part d).bytes = d := rfl

/-- `Circuits.UART.flush/2`'s direction. -/
inductive Direction
  | receive
  | transmit
  | both
  deriving DecidableEq, Repr

end CircuitsUart
