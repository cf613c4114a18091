import CircuitsUart.Framing.Framer
import CircuitsUart.Lib.Run

/-!
# A framer between `init/1` and the next one

`Circuits.UART` calls four things of a framer once it is initialised: `add_framing/2`,
`remove_framing/2`, `frame_timeout/1` and `flush/2`. `Framer.operate` is any one of them,
with what it takes in and hands out as labels, and a run of it is a framer's life.

Two things are read off such runs for the line framer. With a `max_length` and a separator
its buffer stays bounded and no byte is lost (`operations_bounded`). And whether its loop
ends is settled exactly (`processData_ends_iff`): `init/1` takes a `max_length` of 0, and
then only separators can be received.
-/

set_option autoImplicit false

namespace CircuitsUart

open Lib

variable {β : Type}

/-- What is called of a framer. -/
inductive Op (β : Type)
  | addFraming (data : List UInt8)
  | removeFraming (data : List β)
  | frameTimeout
  | flush (direction : Direction)

/-- What an operation takes in, hands out or throws away. -/
inductive Told (β : Type)
  | framed (data : List UInt8)
  | received (data : List β)
  | reported (message : Message β)
  | timedOut (message : Message β)
  | dropped (bytes : List β)
  deriving DecidableEq

/-- One operation; `none` when `remove_framing/2` does not return. -/
def Framer.operate [Octet β] (f : Framer β) : Op β → Option (Framer β × List (Told β))
  | .addFraming data => some ((f.addFraming data).2, [.framed (f.addFraming data).1])
  | .removeFraming data =>
    match f.removeFraming data with
    | Option.none => Option.none
    | some (_, messages, f') => some (f', .received data :: messages.map .reported)
  | .frameTimeout => some (f.frameTimeout.2, f.frameTimeout.1.map .timedOut)
  | .flush direction =>
    some (f.flush direction, [.dropped (if direction = .transmit then [] else f.buffered)])

section values

variable [Octet β]

/-- The byte values taken in. -/
def Told.taken : Told β → List UInt8
  | .received data => data.map Octet.val
  | _ => []

/-- The byte values handed out or thrown away, a separator put back behind each line. -/
def Told.given (separator : List UInt8) : Told β → List UInt8
  | .reported (.whole line) => line.map Octet.val ++ separator
  | .reported (.part piece) => piece.map Octet.val
  | .timedOut message => message.bytes.map Octet.val
  | .dropped bytes => bytes.map Octet.val
  | _ => []

end values

/-! ## What is called keeps a framer usable -/

variable [Octet β]

/-- Every operation of a usable framer returns, and leaves it usable. -/
theorem Framer.Usable.operate {f : Framer β} (h : f.Usable) (op : Op β) :
    ∃ f' out, f.operate op = some (f', out) ∧ f'.Usable ∧ f'.framing = f.framing := by
  cases op with
  | addFraming data => exact ⟨f, _, by rw [Framer.operate, addFraming_snd], h, rfl⟩
  | removeFraming data =>
    obtain ⟨rc, ms, f', hr, hu⟩ := exists_removeFraming h data
    refine ⟨f', .received data :: ms.map .reported, by simp only [Framer.operate, hr], hu, ?_⟩
    rcases removeFraming_cases hr with ⟨rfl, rfl, -⟩ | ⟨_, _, rfl, rfl, -⟩ | ⟨_, _, rfl, rfl, -⟩
    all_goals rfl
  | frameTimeout =>
    refine ⟨f.frameTimeout.2, _, rfl, ?_⟩
    cases f with
    | none => exact ⟨trivial, rfl⟩
    | fourByte rxBuffer => exact ⟨Nat.succ_pos 3, rfl⟩
    | line s => exact ⟨Line.State.Ok.clear h, rfl⟩
  | flush direction =>
    refine ⟨f.flush direction, _, rfl, ?_⟩
    cases f with
    | none => exact ⟨trivial, rfl⟩
    | fourByte rxBuffer =>
      cases direction with
      | transmit => exact ⟨h, rfl⟩
      | receive => exact ⟨Nat.succ_pos 3, rfl⟩
      | both => exact ⟨Nat.succ_pos 3, rfl⟩
    | line s =>
      cases direction with
      | transmit => exact ⟨h, rfl⟩
      | receive => exact ⟨Line.State.Ok.clear h, rfl⟩
      | both => exact ⟨Line.State.Ok.clear h, rfl⟩

/-- What a usable framer comes to is usable. -/
theorem Framer.Usable.reach {f f' : Framer β} {h : List (Told β)} (hf : f.Usable)
    (r : Reach Framer.operate anyStep f h f') : f'.Usable := by
  induction r with
  | start => exact hf
  | step _ _ took ih =>
    obtain ⟨g, out, hg, hu, -⟩ := ih.operate _
    rw [hg] at took
    obtain ⟨rfl, -⟩ := by simpa using took
    exact hu

/-! ## The line framer's buffer is bounded, and nothing is lost -/

namespace Line

section process

variable {sep : List UInt8} {max : Nat} {p t p' t' : List β} {ms : List (Message β)}

/-- A partial is a `processed` that is full. -/
theorem Process.part_length (h : Process sep max p t ms p' t') {d : List β}
    (hd : .part d ∈ ms) : d.length = max := by
  induction h with
  | wait _ => exact absurd hd (by simp)
  | separator _ _ ih =>
    apply ih
    simpa using hd
  | tooLong _ _ full _ ih =>
    rcases List.mem_cons.mp hd with heq | hd
    · cases heq
      exact full
    · exact ih hd
  | next _ _ _ _ ih => exact ih hd

/-- A line is a `processed` whose every position was decided. -/
theorem Process.whole_clean (h : Process sep max p t ms p' t') (hp : p.length ≤ max)
    (hahead : ∀ i, i < p.length → ¬ StartsWith Octet.val sep ((p ++ t).drop i)) {d : List β}
    (hd : .whole d ∈ ms) :
    d.length ≤ max ∧ ∀ i, ¬ StartsWith Octet.val sep (d.drop i) := by
  induction h with
  | wait _ => exact absurd hd (by simp)
  | @separator p t p' t' ms here go ih =>
    rcases List.mem_cons.mp hd with heq | hd
    · cases heq
      refine ⟨hp, fun i hst => ?_⟩
      have hlt : i < d.length := by
        have hle := hst.length_le
        have hpos := List.length_pos_iff.mpr go.sep_ne_nil
        simp only [List.length_drop] at hle
        omega
      apply hahead i hlt
      rw [List.drop_append_of_le_length hlt.le]
      exact hst.append
    · exact ih (Nat.zero_le _) (fun i hi => absurd hi (by simp)) hd
  | tooLong _ _ _ _ ih =>
    apply ih (Nat.zero_le _) (fun i hi => absurd hi (by simp))
    simpa using hd
  | @next p rest p' t' b ms long not_here room _ ih =>
    refine ih (by simp; omega) (fun i hi => ?_) hd
    rw [List.append_assoc, List.singleton_append]
    by_cases hlt : i < p.length
    · exact hahead i hlt
    · have hi' : i = p.length := by simp at hi; omega
      rw [hi', List.drop_left]
      exact not_here

/-- The messages, with the separators put back, and what is kept are what was there. -/
theorem Process.conserved (h : Process sep max p t ms p' t') :
    (ms.map Told.reported).flatMap (Told.given sep) ++ (p' ++ t').map Octet.val =
      (p ++ t).map Octet.val := by
  induction h with
  | wait _ => rfl
  | @separator p t p' t' ms here _ ih =>
    have hcut : t.map Octet.val = sep ++ (t.drop sep.length).map Octet.val := by
      conv_lhs => rw [← List.take_append_drop sep.length t, List.map_append]
      exact congrArg (· ++ _) here
    rw [List.nil_append] at ih
    rw [List.map_cons, List.flatMap_cons, List.append_assoc, ih, List.map_append, hcut]
    simp only [Told.given, List.append_assoc]
  | tooLong _ _ _ _ ih =>
    rw [List.nil_append] at ih
    rw [List.map_cons, List.flatMap_cons, List.append_assoc, ih, List.map_append]
    rfl
  | next _ _ _ _ ih =>
    rw [ih]
    simp

end process

end Line

namespace Framer

/-- What holds of a line framer's state and of all it has told since `init/1`. -/
structure Kept (sep : List UInt8) (max : Nat) (h : List (Told β)) (s : Line.State β) : Prop where
  ok : s.Ok
  separator : s.separator = sep
  maxLength : s.maxLength = max
  whole : ∀ d, .reported (.whole d) ∈ h →
    d.length ≤ max ∧ ∀ i, ¬ StartsWith Octet.val sep (d.drop i)
  part : ∀ d, .reported (.part d) ∈ h → d.length = max
  conserved : h.flatMap (Told.given sep) ++ (s.processed ++ s.inProcess).map Octet.val =
    h.flatMap Told.taken

/-- Telling nothing about lines, and accounting for what leaves the buffer. -/
theorem Kept.tell {sep : List UInt8} {max : Nat} {h out : List (Told β)} {s s' : Line.State β}
    (k : Kept sep max h s) (ok : s'.Ok) (separator : s'.separator = s.separator)
    (maxLength : s'.maxLength = s.maxLength) (silent : ∀ m, .reported m ∉ out)
    (bytes : out.flatMap (Told.given sep) ++ (s'.processed ++ s'.inProcess).map Octet.val =
      (s.processed ++ s.inProcess).map Octet.val) (taken : out.flatMap Told.taken = []) :
    Kept sep max (h ++ out) s' where
  ok := ok
  separator := separator.trans k.separator
  maxLength := maxLength.trans k.maxLength
  whole d hd := by
    rcases List.mem_append.mp hd with hd | hd
    · exact k.whole d hd
    · exact absurd hd (silent _)
  part d hd := by
    rcases List.mem_append.mp hd with hd | hd
    · exact k.part d hd
    · exact absurd hd (silent _)
  conserved := by
    rw [List.flatMap_append, List.flatMap_append, taken, List.append_nil, List.append_assoc, bytes]
    exact k.conserved

/-- `remove_framing/2` reports lines that fit and partials that are full. -/
theorem Kept.after_removeFraming {sep : List UInt8} {max : Nat} {h : List (Told β)}
    {s s' : Line.State β}
    {data : List β} {rc : Rc} {ms : List (Message β)} (k : Kept sep max h s)
    (hr : Line.removeFraming data s = some (rc, ms, s')) :
    Kept sep max (h ++ .received data :: ms.map .reported) s' := by
  obtain ⟨p', t', hp, rfl, -⟩ := Line.removeFraming_iff.mp hr
  have hahead := k.ok.ahead data
  have hfits := k.ok.fits
  rw [k.separator] at hp hahead
  rw [k.maxLength] at hp hfits
  have hmem : ∀ m, Told.reported m ∈ h ++ .received data :: ms.map .reported →
      Told.reported m ∈ h ∨ m ∈ ms := by
    intro m hm
    simpa using hm
  refine ⟨k.ok.removeFraming hr, k.separator, k.maxLength, ?_, ?_, ?_⟩
  · intro d hd
    rcases hmem _ hd with hd | hd
    · exact k.whole d hd
    · exact hp.whole_clean hfits hahead hd
  · intro d hd
    rcases hmem _ hd with hd | hd
    · exact k.part d hd
    · exact hp.part_length hd
  · have hin : (ms.map Told.reported).flatMap (Told.taken (β := β)) = [] := by
      simp [List.flatMap_eq_nil_iff, Told.taken]
    have hout := hp.conserved
    rw [← List.append_assoc s.processed, @List.map_append _ _ _ _ data] at hout
    rw [List.flatMap_append, List.flatMap_append, List.flatMap_cons, List.flatMap_cons, hin,
      ← k.conserved, List.append_nil, List.append_assoc, List.append_assoc, List.append_assoc]
    exact congrArg (h.flatMap (Told.given sep) ++ ·) hout

/-- One operation. -/
theorem Kept.after_operate {sep : List UInt8} {max : Nat} {h : List (Told β)} {s : Line.State β}
    (k : Kept sep max h s) (op : Op β) :
    ∃ s' out, operate (.line s) op = some (.line s', out) ∧ Kept sep max (h ++ out) s' := by
  cases op with
  | addFraming data =>
    exact ⟨s, _, rfl, k.tell k.ok rfl rfl (by simp) (by simp [Told.given]) (by simp [Told.taken])⟩
  | removeFraming data =>
    obtain ⟨⟨rc, ms, s'⟩, hr⟩ := Option.isSome_iff_exists.mp (k.ok.isSome data)
    refine ⟨s', _, ?_, k.after_removeFraming hr⟩
    simp only [operate, removeFraming, hr]
  | frameTimeout =>
    exact ⟨_, _, rfl, k.tell k.ok.clear rfl rfl (by simp [frameTimeout])
      (by simp [frameTimeout, Line.frameTimeout, Told.given])
      (by simp [frameTimeout, Line.frameTimeout, Told.taken])⟩
  | flush direction =>
    cases direction with
    | transmit =>
      exact ⟨s, _, rfl, k.tell k.ok rfl rfl (by simp) (by simp [Told.given]) (by simp [Told.taken])⟩
    | receive =>
      exact ⟨_, _, rfl, k.tell k.ok.clear rfl rfl (by simp)
        (by simp [Told.given, buffered, Line.flush]) (by simp [Told.taken])⟩
    | both =>
      exact ⟨_, _, rfl, k.tell k.ok.clear rfl rfl (by simp)
        (by simp [Told.given, buffered, Line.flush]) (by simp [Told.taken])⟩

/-- A list of operations. -/
theorem Kept.after_operations {sep : List UInt8} {max : Nat} (ops : List (Op β))
    {h : List (Told β)} {s : Line.State β} (k : Kept sep max h s) :
    ∃ s' out, exec operate (.line s) ops = some (.line s', out) ∧
      Kept sep max (h ++ out) s' := by
  have keeps : ∀ (h : List (Told β)) (f : Framer β) (op : Op β),
      (∃ s, f = .line s ∧ Kept sep max h s) → ∃ f' out, f.operate op = some (f', out) ∧
        ∃ s, f' = .line s ∧ Kept sep max (h ++ out) s := by
    rintro h _ op ⟨s, rfl, k⟩
    obtain ⟨s', out, took, k'⟩ := k.after_operate op
    exact ⟨.line s', out, took, s', rfl, k'⟩
  obtain ⟨_, out, ran, s', rfl, k'⟩ := exec_of_keeps keeps ops ⟨s, rfl, k⟩
  exact ⟨s', out, ran, k'⟩

/-- **The line framer's buffer stays bounded and loses nothing.** After any operations from
`init`, `processed` fits a line, `in_process` is shorter than a separator and neither holds
one; the lines reported fit and hold no separator, the partials are exactly full; and what
was received is what was reported, timed out and flushed, in order, with the buffer last. -/
theorem operations_bounded {sep : List UInt8} {max : Nat} (hsep : sep ≠ []) (hmax : 1 ≤ max)
    (ops : List (Op β)) :
    ∃ s h, exec operate (init .line ⟨some max, some sep⟩) ops = some (.line s, h) ∧
      s.processed.length ≤ max ∧ s.inProcess.length < sep.length ∧
      (∀ i, ¬ StartsWith Octet.val sep ((s.processed ++ s.inProcess).drop i)) ∧
      (∀ d, .reported (.whole d) ∈ h →
        d.length ≤ max ∧ ∀ i, ¬ StartsWith Octet.val sep (d.drop i)) ∧
      (∀ d, .reported (.part d) ∈ h → d.length = max) ∧
      h.flatMap (Told.given sep) ++ (s.processed ++ s.inProcess).map Octet.val =
        h.flatMap Told.taken := by
  have hinit : Kept sep max [] (Line.init ⟨some max, some sep⟩ : Line.State β) :=
    ⟨Line.init_ok hmax hsep, rfl, rfl, by simp, by simp, rfl⟩
  obtain ⟨s, h, hops, k⟩ := hinit.after_operations ops
  have hshort := k.ok.short
  have hfits := k.ok.fits
  have hclean := k.ok.clean
  rw [k.separator] at hshort hclean
  rw [k.maxLength] at hfits
  exact ⟨s, h, hops, hfits, hshort, hclean, k.whole, k.part, k.conserved⟩

/-- A timeout between the two bytes of a separator: both are reported, neither as one. -/
theorem operations_bounded_cut :
    exec operate (init .line ⟨some 2, some [13, 10]⟩ : Framer UInt8)
        [.removeFraming [65, 66, 67, 13], .frameTimeout, .removeFraming [10, 13, 10]] =
      some (.line ⟨2, [13, 10], [], []⟩,
        [.received [65, 66, 67, 13], .reported (.part [65, 66]), .timedOut (.part [67, 13]),
          .received [10, 13, 10], .reported (.whole [10])]) ∧
      ∃ s h, exec operate (init .line ⟨some 2, some [13, 10]⟩ : Framer UInt8)
        [.removeFraming [65, 66, 67, 13], .frameTimeout, .removeFraming [10, 13, 10]] =
          some (.line s, h) := by
  refine ⟨by decide, ?_⟩
  obtain ⟨s, h, hops, -⟩ := @operations_bounded UInt8 _ [13, 10] 2 (by decide) (by decide)
    [.removeFraming [65, 66, 67, 13], .frameTimeout, .removeFraming [10, 13, 10]]
  exact ⟨s, h, hops⟩

end Framer

/-! ## When the line framer's loop ends -/

namespace Line

/-- `process_data/6` returns on these arguments. -/
def Ends (separator : List UInt8) (maxLength : Nat) (processed toProcess : List β) : Prop :=
  ∃ fuel, (processData separator maxLength fuel processed toProcess []).isSome

/-- Separators, and then fewer bytes than another one has. -/
def OnlySeparators (separator : List UInt8) (toProcess : List β) : Prop :=
  ∃ (k : Nat) (rest : List UInt8), rest.length < separator.length ∧
    toProcess.map Octet.val = (List.replicate k separator).flatten ++ rest

section ends

variable {sep : List UInt8} {max : Nat} {p t p' t' : List β} {ms : List (Message β)}

theorem ends_iff : Ends sep max p t ↔ ∃ ms p' t', Process sep max p t ms p' t' := by
  constructor
  · intro ⟨fuel, h⟩
    obtain ⟨⟨p', t', out⟩, heq⟩ := Option.isSome_iff_exists.mp h
    obtain ⟨ms, -, hp⟩ := process_of_processData heq
    exact ⟨ms, p', t', hp⟩
  · intro ⟨ms, p', t', hp⟩
    refine ⟨turns max p t + 1, ?_⟩
    rw [processData_of_process hp (Nat.lt_succ_self _)]
    rfl

theorem OnlySeparators.of_length (h : t.length < sep.length) : OnlySeparators sep t :=
  ⟨0, t.map Octet.val, by simpa using h, by simp⟩

/-- A separator in front is one more. -/
theorem OnlySeparators.cons (here : StartsWith Octet.val sep t)
    (h : OnlySeparators sep (t.drop sep.length)) : OnlySeparators sep t := by
  obtain ⟨k, rest, hlt, hrest⟩ := h
  refine ⟨k + 1, rest, hlt, ?_⟩
  rw [← List.take_append_drop sep.length t, List.map_append, hrest, List.replicate_succ,
    List.flatten_cons, List.append_assoc]
  exact congrArg (· ++ _) here

/-- A line with no room for a byte ends on nothing but separators, and keeps no byte. -/
theorem Process.of_zero (h : Process sep max p t ms p' t') (hmax : max = 0) (hp : p = []) :
    OnlySeparators sep t ∧ p' = [] := by
  induction h with
  | wait short => exact ⟨.of_length short, hp⟩
  | separator here _ ih => exact ⟨.cons here (ih rfl).1, (ih rfl).2⟩
  | tooLong long not_here _ go _ => exact (go.not_zero hmax rfl long not_here).elim
  | next _ _ room _ _ => exact absurd (by rw [hp, hmax]; rfl) room

/-- On separators the loop never comes to the "line too long" branch. -/
theorem OnlySeparators.ends (h : OnlySeparators sep t) :
    ∃ ms p' t', Process sep max p t ms p' t' := by
  obtain ⟨k, rest, hlt, hrest⟩ := h
  induction k generalizing p t with
  | zero =>
    have hlen := congrArg List.length hrest
    simp only [List.replicate_zero, List.flatten_nil, List.nil_append, List.length_map] at hlen
    exact ⟨[], p, t, .wait (hlen ▸ hlt)⟩
  | succ k ih =>
    rw [List.replicate_succ, List.flatten_cons, List.append_assoc] at hrest
    have here : StartsWith Octet.val sep t := by
      rw [StartsWith, List.map_take, hrest, List.take_left]
    have hdrop : (t.drop sep.length).map Octet.val = (List.replicate k sep).flatten ++ rest := by
      rw [List.map_drop, hrest, List.drop_left]
    obtain ⟨ms, p', t', hp⟩ := @ih [] (t.drop sep.length) hdrop
    exact ⟨_, _, _, .separator here hp⟩

end ends

end Line

namespace Framer

open Line (Args Ends OnlySeparators processData)

/-- A line framer keeps its configuration, and a line with no room for a byte keeps none. -/
theorem reach_line {args : Args} {h : List (Told β)} {f : Framer β}
    (r : Reach operate anyStep (init .line args) h f) :
    ∃ s : Line.State β, f = .line s ∧ s.separator = args.separator.getD [10] ∧
      s.maxLength = args.maxLength.getD 4096 ∧ (s.maxLength = 0 → s.processed = []) := by
  induction r with
  | start => exact ⟨_, rfl, rfl, rfl, fun _ => rfl⟩
  | @step _ _ _ op _ _ _ took ih =>
    obtain ⟨s, rfl, hsep, hmax, hzero⟩ := ih
    cases op with
    | addFraming data =>
      obtain ⟨rfl, -⟩ := by simpa [operate] using took
      exact ⟨s, rfl, hsep, hmax, hzero⟩
    | removeFraming data =>
      cases hr : removeFraming data (.line s) with
      | none => simp [operate, hr] at took
      | some q =>
        obtain ⟨rc, ms, f'⟩ := q
        obtain ⟨rfl, -⟩ := by simpa [operate, hr] using took
        rcases removeFraming_cases hr with ⟨hs, -⟩ | ⟨_, _, hs, -⟩ |
          ⟨_, s', hs, rfl, hsep', hmax', hp, -⟩
        · exact absurd hs (by simp)
        · exact absurd hs (by simp)
        · cases hs
          -- with no room for a byte, whatever was processed was separators
          refine ⟨s', rfl, hsep'.trans hsep, hmax'.trans hmax, fun h0 => ?_⟩
          rw [hmax'] at h0
          exact (hp.of_zero h0 (hzero h0)).2
    | frameTimeout =>
      obtain ⟨rfl, -⟩ := by simpa [operate] using took
      exact ⟨_, rfl, hsep, hmax, fun _ => rfl⟩
    | flush direction =>
      obtain ⟨rfl, -⟩ := by simpa [operate] using took
      cases direction with
      | transmit => exact ⟨s, rfl, hsep, hmax, hzero⟩
      | receive => exact ⟨_, rfl, hsep, hmax, fun _ => rfl⟩
      | both => exact ⟨_, rfl, hsep, hmax, fun _ => rfl⟩

/-- **When deframing ends.** Whatever a framer with a separator of one or two bytes has been
through since `init/1`, `process_data/6` returns on the next data exactly when a line has
room for a byte, or there is nothing but separators to process. -/
theorem processData_ends_iff {args : Args}
    (hsep : (args.separator.getD [10]).length = 1 ∨ (args.separator.getD [10]).length = 2)
    {h : List (Told β)} {s : Line.State β}
    (r : Reach operate anyStep (init .line args) h (.line s)) (data : List β) :
    Ends s.separator s.maxLength s.processed (s.inProcess ++ data) ↔
      0 < args.maxLength.getD 4096 ∨ OnlySeparators s.separator (s.inProcess ++ data) := by
  obtain ⟨s', hs, hsep', hmax', hzero⟩ := reach_line r
  cases hs
  have hne : s.separator ≠ [] := by
    intro hnil
    rw [← hsep', hnil] at hsep
    simp at hsep
  rw [Line.ends_iff]
  constructor
  · intro ⟨ms, p', t', hp⟩
    by_cases hpos : 0 < args.maxLength.getD 4096
    · exact .inl hpos
    · have h0 : s.maxLength = 0 := by omega
      exact .inr (hp.of_zero h0 (hzero h0)).1
  · intro hcond
    rcases hcond with hpos | honly
    · rw [← hmax'] at hpos
      exact Line.exists_process hne hpos _ _ _ (Nat.lt_succ_self _)
    · exact honly.ends

/-- With no room for a byte, a line feed is processed and ends. -/
theorem processData_ends_iff_zero :
    Ends [10] 0 ([] : List UInt8) ([] ++ [10]) ↔
      0 < 0 ∨ OnlySeparators [10] ([] ++ [10] : List UInt8) :=
  @processData_ends_iff UInt8 _ ⟨some 0, some [10]⟩ (.inl rfl) [] (Line.init ⟨some 0, some [10]⟩)
    .start [10]

/-- `init/1` takes a `max_length` of 0, and then the first byte that is no separator is
never got past. -/
theorem processData_loops :
    ∃ (args : Args) (s : Line.State UInt8) (data : List UInt8),
      (args.separator.getD [10]).length = 1 ∧
      Reach operate anyStep (init .line args) [] (.line s) ∧
      ¬ ∃ fuel, (processData s.separator s.maxLength fuel s.processed (s.inProcess ++ data)
        []).isSome := by
  refine ⟨{ maxLength := some 0 }, Line.init { maxLength := some 0 }, [65], by decide, .start, ?_⟩
  intro hends
  obtain ⟨ms, p', t', hp⟩ := Line.ends_iff.mp hends
  obtain ⟨k, rest, hlt, hrest⟩ := (hp.of_zero rfl rfl).1
  obtain rfl : rest = [] := List.length_eq_zero_iff.mp (Nat.lt_one_iff.mp hlt)
  have hmem : (65 : UInt8) ∈ (List.replicate k [(10 : UInt8)]).flatten := by
    rw [List.append_nil] at hrest
    exact hrest ▸ List.mem_singleton.mpr rfl
  obtain ⟨line, hline, hin⟩ := List.mem_flatten.mp hmem
  obtain rfl := List.eq_of_mem_replicate hline
  exact absurd hin (by decide)

end Framer

end CircuitsUart
