import Mathlib

/-!
# Machines fed in chunks

A decoder is fed input in pieces and answers each piece with a list of outputs and a new
state: `feed : List β → σ → List μ × σ`. How the input was cut into pieces is an accident
of the transport, and the one property a decoder must have is that it does not matter.

`Chunked feed Inv` is that property in its local form: feeding `a ++ b` is feeding `a`
and then `b`. It is asked only of states satisfying `Inv`, because decoders keep a buffer
and the law is usually false of buffers no run produces. `Chunked.feedAll_eq` is the
global form: any list of pieces is as good as their concatenation.

The invariant is a field of the same structure as the law, so a decoder proves both in one
induction over its own loop and whoever uses the global form has only to say where it starts.
-/

set_option autoImplicit false

namespace CircuitsUart.Lib

variable {β μ σ : Type}

/-- Feed the pieces one after another, collecting the outputs. -/
def feedAll (feed : List β → σ → List μ × σ) : List (List β) → σ → List μ × σ
  | [], s => ([], s)
  | d :: ds, s => ((feed d s).1 ++ (feedAll feed ds (feed d s).2).1,
      (feedAll feed ds (feed d s).2).2)

/-- Cuts do not matter, one cut at a time, from every state satisfying `Inv`. -/
structure Chunked (feed : List β → σ → List μ × σ) (Inv : σ → Prop) : Prop where
  keep : ∀ d s, Inv s → Inv (feed d s).2
  nil : ∀ s, Inv s → feed [] s = ([], s)
  append : ∀ a b s, Inv s →
    feed (a ++ b) s = ((feed a s).1 ++ (feed b (feed a s).2).1, (feed b (feed a s).2).2)

/-- **Chunk invariance.** Feeding the pieces is feeding their concatenation. -/
theorem Chunked.feedAll_eq {feed : List β → σ → List μ × σ} {Inv : σ → Prop}
    (h : Chunked feed Inv) (ds : List (List β)) {s : σ} (hs : Inv s) :
    feedAll feed ds s = feed ds.flatten s := by
  induction ds generalizing s with
  | nil => simp [feedAll, h.nil s hs]
  | cons d ds ih =>
    rw [List.flatten_cons, h.append d ds.flatten s hs, feedAll, ih (h.keep d s hs)]

end CircuitsUart.Lib
