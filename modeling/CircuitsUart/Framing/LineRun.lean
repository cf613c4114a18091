import CircuitsUart.Framing.Line

/-!
# The line framer computes the split of the stream

What `Circuits.UART.Framing.Line` is for: the lines of the byte stream, each reported in
pieces of at most `max_length`, whatever the chunks the stream arrives in.

The reference is `Lib.Split`, the leftmost non-overlapping occurrences of the separator,
together with `report`, the pieces one complete line is cut into. The invariant behind
everything is `State.Ok`: the undecided bytes (`in_process`) are too few to hold a
separator, the decided ones (`processed`) fit a line and were decided with a separator's
worth of bytes in sight, and no separator begins in either. It is a field of `Framer`, so
no later module ever meets a buffer that breaks it.
-/

set_option autoImplicit false

namespace CircuitsUart.Line

open Lib

variable {β : Type} [Octet β]

/-! ## The invariant -/

/-- What holds of the state between calls, from `init` with a usable configuration on. -/
structure State.Ok (s : State β) : Prop where
  max_pos : 0 < s.maxLength
  sep_ne : s.separator ≠ []
  short : s.inProcess.length < s.separator.length
  fits : s.processed.length ≤ s.maxLength
  decided : s.processed ≠ [] → s.separator.length ≤ s.inProcess.length + 1
  clean : ∀ i, ¬ StartsWith Octet.val s.separator ((s.processed ++ s.inProcess).drop i)

theorem init_ok {args : Args} (hmax : 0 < args.maxLength.getD 4096)
    (hsep : args.separator.getD [10] ≠ []) : (init args : State β).Ok where
  max_pos := hmax
  sep_ne := hsep
  short := List.length_pos_iff.mpr hsep
  fits := Nat.zero_le _
  decided h := absurd rfl h
  clean i h := hsep (by simpa [init, StartsWith] using h.symm)

/-- Dropping the buffer, as `flush/2` and `frame_timeout/1` do. -/
theorem State.Ok.clear {s : State β} (h : s.Ok) :
    ({ s with processed := [], inProcess := [] } : State β).Ok where
  max_pos := h.max_pos
  sep_ne := h.sep_ne
  short := List.length_pos_iff.mpr h.sep_ne
  fits := Nat.zero_le _
  decided h := absurd rfl h
  clean i hst := h.sep_ne (by simpa [StartsWith] using hst.symm)

section process

variable {sep : List UInt8} {max : Nat} {p t p' t' : List β} {ms : List (Message β)}

theorem Process.short (h : Process sep max p t ms p' t') : t'.length < sep.length := by
  induction h with
  | wait short => exact short
  | separator _ _ ih => exact ih
  | tooLong _ _ _ _ ih => exact ih
  | next _ _ _ _ ih => exact ih

theorem Process.fits (h : Process sep max p t ms p' t') (hp : p.length ≤ max) :
    p'.length ≤ max := by
  induction h with
  | wait _ => exact hp
  | separator _ _ ih => exact ih (Nat.zero_le _)
  | tooLong _ _ _ _ ih => exact ih (Nat.zero_le _)
  | next _ _ room _ ih => exact ih (by simp only [List.length_append, List.length_singleton]; omega)

/-- A byte is moved to `processed` only with a separator's worth of bytes in sight. -/
theorem Process.decided (h : Process sep max p t ms p' t')
    (hp : p ≠ [] → sep.length ≤ t.length + 1) : p' ≠ [] → sep.length ≤ t'.length + 1 := by
  induction h with
  | wait _ => exact hp
  | separator _ _ ih => exact ih fun hne => absurd rfl hne
  | tooLong _ _ _ _ ih => exact ih fun hne => absurd rfl hne
  | next long _ _ _ ih => exact ih fun _ => by simpa using long

/-- A position is decided once the loop has moved past it, so what is left holds no
separator. -/
theorem Process.clean (h : Process sep max p t ms p' t')
    (hp : ∀ i, i < p.length → ¬ StartsWith Octet.val sep ((p ++ t).drop i)) :
    ∀ i, ¬ StartsWith Octet.val sep ((p' ++ t').drop i) := by
  induction h with
  | @wait p t short =>
    intro i hst
    have hle := hst.length_le
    by_cases hi : i < p.length
    · exact hp i hi hst
    · simp only [List.length_drop, List.length_append] at hle
      omega
  | separator _ _ ih => exact ih fun i hi => absurd hi (by simp)
  | tooLong _ _ _ _ ih => exact ih fun i hi => absurd hi (by simp)
  | @next p rest p' t' b ms long not_here room _ ih =>
    refine ih fun i hi => ?_
    rw [List.append_assoc, List.singleton_append]
    rcases Nat.lt_or_ge i p.length with hlt | hge
    · exact hp i hlt
    · have hi' : i = p.length := by simp at hi; omega
      rw [hi', List.drop_left]
      exact not_here

end process

/-- The decided bytes stay decided whatever arrives behind them. -/
theorem State.Ok.ahead {s : State β} (h : s.Ok) (data : List β) :
    ∀ i, i < s.processed.length →
      ¬ StartsWith Octet.val s.separator ((s.processed ++ (s.inProcess ++ data)).drop i) := by
  intro i hi hst
  have hne : s.processed ≠ [] := List.length_pos_iff.mp (by omega)
  have hlen := h.decided hne
  rw [← List.append_assoc, List.drop_append_of_le_length (by simp; omega)] at hst
  exact h.clean i ((startsWith_append (by simp; omega)).mp hst)

/-- `remove_framing/2` keeps the invariant. -/
theorem State.Ok.removeFraming {s s' : State β} {data : List β} {rc : Rc} {ms : List (Message β)}
    (h : s.Ok) (hr : Line.removeFraming data s = some (rc, ms, s')) : s'.Ok := by
  obtain ⟨p', t', hp, rfl, -⟩ := removeFraming_iff.mp hr
  exact ⟨h.max_pos, h.sep_ne, hp.short, hp.fits h.fits,
    hp.decided fun hne => by have := h.decided hne; simp; omega, hp.clean (h.ahead data)⟩

/-- From a state satisfying the invariant, `remove_framing/2` returns. -/
theorem State.Ok.isSome {s : State β} (h : s.Ok) (data : List β) :
    (Line.removeFraming data s).isSome := by
  obtain ⟨ms, p', t', hp⟩ := exists_process (β := β) h.sep_ne h.max_pos _ s.processed
    (s.inProcess ++ data) (Nat.lt_succ_self _)
  rw [removeFraming_iff.mpr ⟨p', t', hp, rfl, rfl⟩]
  rfl

/-! ## Chunks do not matter -/

/-- Stopping the loop for lack of data and going on with more is not stopping at all. -/
theorem Process.append {sep : List UInt8} {max : Nat} {p t p' t' p₂ t₂ d : List β}
    {ms ms₂ : List (Message β)} (h : Process sep max p t ms p' t')
    (h₂ : Process sep max p' (t' ++ d) ms₂ p₂ t₂) : Process sep max p (t ++ d) (ms ++ ms₂) p₂ t₂ := by
  induction h with
  | wait _ => exact h₂
  | separator here _ ih =>
    refine .separator here.append ?_
    rw [List.drop_append_of_le_length here.length_le]
    exact ih h₂
  | tooLong long not_here full _ ih =>
    exact .tooLong (by simp; omega) (fun h => not_here ((startsWith_append long).mp h)) full (ih h₂)
  | next long not_here room _ ih =>
    exact .next (by simp at long ⊢; omega) (fun h => not_here ((startsWith_append long).mp h))
      room (ih h₂)

/-- A line framer between calls: its state together with the invariant. -/
structure Framer (β : Type) [Octet β] where
  state : State β
  ok : state.Ok

@[ext] theorem Framer.ext {f g : Framer β} (h : f.state = g.state) : f = g := by
  obtain ⟨s, hs⟩ := f
  obtain ⟨t, ht⟩ := g
  cases h
  rfl

/-- `remove_framing/2` on such a framer, where it always returns. -/
def Framer.removeFraming (data : List β) (f : Framer β) : Rc × List (Message β) × Framer β :=
  match h : Line.removeFraming data f.state with
  | some (rc, ms, s') => (rc, ms, ⟨s', f.ok.removeFraming h⟩)
  | none => absurd (f.ok.isSome data) (by simp [h])

theorem Framer.removeFraming_of_process {f : Framer β} {data p' t' : List β}
    {ms : List (Message β)}
    (h : Process f.state.separator f.state.maxLength f.state.processed
      (f.state.inProcess ++ data) ms p' t') :
    ∃ hok, f.removeFraming data =
      (if bufferEmpty { f.state with processed := p', inProcess := t' } then .ok else .inFrame, ms,
        ⟨{ f.state with processed := p', inProcess := t' }, hok⟩) := by
  have heq := removeFraming_iff.mpr ⟨p', t', h, rfl, rfl⟩
  refine ⟨f.ok.removeFraming heq, ?_⟩
  unfold Framer.removeFraming
  split
  · next rc ms' s' hs =>
    rw [heq] at hs
    obtain ⟨rfl, rfl, rfl⟩ := by simpa using hs
    rfl
  · next hs => exact absurd (heq.symm.trans hs) (by simp)

/-- The framer as a machine fed in chunks: its messages and its next state. -/
def Framer.feed (data : List β) (f : Framer β) : List (Message β) × Framer β :=
  ((f.removeFraming data).2.1, (f.removeFraming data).2.2)

theorem Framer.exists_process (f : Framer β) (data : List β) :
    ∃ ms p' t', Process f.state.separator f.state.maxLength f.state.processed
      (f.state.inProcess ++ data) ms p' t' :=
  Line.exists_process f.ok.sep_ne f.ok.max_pos _ _ _ (Nat.lt_succ_self _)

/-- **The line framer is chunk invariant.** -/
theorem Framer.chunked : Chunked (Framer.feed (β := β)) (fun _ => True) where
  keep _ _ _ := trivial
  nil f _ := by
    have hp : Process f.state.separator f.state.maxLength f.state.processed
        (f.state.inProcess ++ []) [] f.state.processed (f.state.inProcess ++ []) :=
      .wait (by simpa using f.ok.short)
    obtain ⟨hok, heq⟩ := Framer.removeFraming_of_process hp
    refine Prod.ext (by simp [Framer.feed, heq]) (Framer.ext ?_)
    simp [Framer.feed, heq]
  append a b f _ := by
    obtain ⟨ms, p', t', hp⟩ := f.exists_process a
    obtain ⟨hok, heq⟩ := Framer.removeFraming_of_process hp
    obtain ⟨ms₂, p₂, t₂, hp₂⟩ := Framer.exists_process
      ⟨{ f.state with processed := p', inProcess := t' }, hok⟩ b
    obtain ⟨hok₂, heq₂⟩ := Framer.removeFraming_of_process hp₂
    have hall := hp.append hp₂
    rw [List.append_assoc] at hall
    obtain ⟨hok₃, heq₃⟩ := Framer.removeFraming_of_process hall
    simp [Framer.feed, heq, heq₂, heq₃]

/-! ## The reference -/

/-- The pieces a complete line is reported in: `⌈n / max⌉ - 1` partials of `max` bytes and
then the rest as a whole message. -/
def report (max : Nat) (line : List β) : List (Message β) :=
  let k := (line.length + max - 1) / max - 1
  (List.range k).map (fun i => .part ((line.drop (i * max)).take max)) ++
    [.whole (line.drop (k * max))]

/-- Join each run of partials, with `acc` in front, with the whole message behind it; the
second component is the trailing run. -/
def joinPartials : List β → List (Message β) → List (List β) × List β
  | acc, [] => ([], acc)
  | acc, .part d :: ms => joinPartials (acc ++ d) ms
  | acc, .whole d :: ms => ((acc ++ d) :: (joinPartials [] ms).1, (joinPartials [] ms).2)

section report

variable {max : Nat}

omit [Octet β]

theorem report_of_le (hmax : 0 < max) {line : List β} (h : line.length ≤ max) :
    report max line = [.whole line] := by
  have hk : (line.length + max - 1) / max < 2 := Nat.div_lt_of_lt_mul (by omega)
  simp [report, show (line.length + max - 1) / max - 1 = 0 by omega]

theorem report_append (hmax : 0 < max) {a line : List β} (ha : a.length = max)
    (hne : line ≠ []) : report max (a ++ line) = .part a :: report max line := by
  have hpos : 0 < line.length := List.length_pos_iff.mpr hne
  have hdiv : (a.length + line.length + max - 1) / max = (line.length + max - 1) / max + 1 := by
    rw [ha, show max + line.length + max - 1 = line.length + max - 1 + max by omega,
      Nat.add_div_right _ hmax]
  have hone : 1 ≤ (line.length + max - 1) / max := Nat.div_pos (by omega) hmax
  obtain ⟨k, hk⟩ : ∃ k, (line.length + max - 1) / max = k + 1 := ⟨_, (Nat.sub_add_cancel hone).symm⟩
  have hdrop : ∀ i, (a ++ line).drop ((i + 1) * max) = line.drop (i * max) := fun i => by
    rw [Nat.succ_mul, Nat.add_comm, ← ha, List.drop_append, List.drop_eq_nil_of_le (by omega),
      List.nil_append, Nat.add_sub_cancel_left]
  simp only [report, List.length_append, hdiv, hk, Nat.add_sub_cancel, List.range_succ_eq_map,
    List.map_cons, List.map_map, Function.comp_def, hdrop, Nat.zero_mul, List.drop_zero,
    List.cons_append, List.cons.injEq, Message.part.injEq, and_true]
  rw [← ha, List.take_left]

/-- Every partial a complete line is reported in has exactly `max` bytes. -/
theorem length_of_part_mem_report (hmax : 0 < max) {line d : List β}
    (h : Message.part d ∈ report max line) : d.length = max := by
  simp only [report, List.mem_append, List.mem_map, List.mem_range, Message.part.injEq,
    List.mem_singleton, reduceCtorEq, or_false] at h
  obtain ⟨i, hi, rfl⟩ := h
  have hle : (i + 2) * max ≤ line.length + max - 1 :=
    (Nat.le_div_iff_mul_le hmax).mp (by omega)
  simp only [List.length_take, List.length_drop]
  have : (i + 2) * max = i * max + 2 * max := Nat.add_mul _ _ _
  omega

theorem joinPartials_parts (acc : List β) (ps : List (List β)) (ms : List (Message β)) :
    joinPartials acc (ps.map .part ++ ms) = joinPartials (acc ++ ps.flatten) ms := by
  induction ps generalizing acc with
  | nil => simp
  | cons p ps ih => simp [joinPartials, ih, List.append_assoc]

/-- The pieces of a line are the line. -/
theorem flatten_pieces (line : List β) (k : Nat) :
    ((List.range k).map (fun i => (line.drop (i * max)).take max)).flatten = line.take (k * max) := by
  induction k with
  | zero => simp
  | succ k ih =>
    rw [List.range_succ, List.map_append, List.flatten_append, ih, Nat.succ_mul, List.take_add]
    simp

theorem joinPartials_report (acc line : List β) (ms : List (Message β)) :
    joinPartials acc (report max line ++ ms) =
      ((acc ++ line) :: (joinPartials [] ms).1, (joinPartials [] ms).2) := by
  have hparts : ∀ k, (List.range k).map (fun i => Message.part ((line.drop (i * max)).take max)) =
      ((List.range k).map (fun i => (line.drop (i * max)).take max)).map .part := fun k => by
    simp [Function.comp_def]
  rw [report, hparts, List.append_assoc, joinPartials_parts, flatten_pieces]
  simp [joinPartials, List.append_assoc]

end report

/-! ## The loop computes the reference -/

/-- **One run of the loop splits its stream.** The messages are the pieces of complete
lines, then partials of the line in progress; the lines are the split of `p ++ t`; what
the partials and the buffer hold is what the split leaves over. -/
theorem Process.split {sep : List UInt8} {max : Nat} {p t p' t' : List β} {ms : List (Message β)}
    (h : Process sep max p t ms p' t') (hmax : 0 < max) (hp : p.length ≤ max)
    (hahead : ∀ i, i < p.length → ¬ StartsWith Octet.val sep ((p ++ t).drop i)) :
    ∃ lines trail : List (List β), ms = lines.flatMap (report max) ++ trail.map .part ∧
      (∀ d ∈ trail, d.length = max) ∧
      Split Octet.val sep (p ++ t) lines (trail.flatten ++ (p' ++ t')) := by
  induction h with
  | @wait p t short =>
    exact ⟨[], [], by simp, by simp,
      .rest fun i _ => (@Process.wait β _ sep max p t short).clean hahead i⟩
  | @separator p t p' t' ms here _ ih =>
    obtain ⟨lines, trail, rfl, htrail, hsplit⟩ := ih (Nat.zero_le _) (fun i hi => absurd hi (by simp))
    refine ⟨p :: lines, trail, ?_, htrail, ?_⟩
    · rw [List.flatMap_cons, report_of_le hmax hp]
      rfl
    · have hdrop : (p ++ t).drop (p.length + sep.length) = t.drop sep.length := by
        rw [List.drop_append, List.drop_eq_nil_of_le (by omega), List.nil_append,
          Nat.add_sub_cancel_left]
      rw [List.nil_append] at hsplit
      have hcut := Split.cut p.length (by simp) (by rwa [List.drop_left]) hahead (hdrop ▸ hsplit)
      rwa [List.take_left] at hcut
  | @tooLong p t p' t' ms long not_here full go ih =>
    obtain ⟨lines, trail, rfl, htrail, hsplit⟩ := ih (Nat.zero_le _) (fun i hi => absurd hi (by simp))
    rw [List.nil_append] at hsplit
    cases lines with
    | nil =>
      refine ⟨[], p :: trail, by simp, ?_, ?_⟩
      · rintro d (_ | ⟨_, hd⟩)
        · exact full
        · exact htrail d hd
      · simpa [List.append_assoc] using hsplit.prepend_rest hahead
    | cons l ls =>
      -- The line in progress goes on: its next piece is not empty, so `p` is a partial of it.
      have hne := hsplit.head_ne_nil go.sep_ne_nil not_here
      refine ⟨(p ++ l) :: ls, trail, ?_, htrail, hsplit.prepend_cut hahead⟩
      rw [List.flatMap_cons, List.flatMap_cons, report_append hmax full hne]
      rfl
  | @next p rest p' t' b ms long not_here room _ ih =>
    have hstream : p ++ [b] ++ rest = p ++ b :: rest := by simp
    rw [hstream] at ih
    refine ih (by simp; omega) fun i hi => ?_
    rcases Nat.lt_or_ge i p.length with hlt | hge
    · exact hahead i hlt
    · have hi' : i = p.length := by simp at hi; omega
      rw [hi', List.drop_left]
      exact not_here

omit [Octet β] in
/-- Pieces of lines and then partials join to the lines and the partials' bytes. -/
theorem joinPartials_lines {max : Nat} (lines trail : List (List β)) :
    joinPartials [] (lines.flatMap (report max) ++ trail.map .part) = (lines, trail.flatten) := by
  induction lines with
  | nil =>
    have := joinPartials_parts [] trail ([] : List (Message β))
    simpa [joinPartials] using this
  | cons l ls ih =>
    rw [List.flatMap_cons, List.append_assoc, joinPartials_report, ih]
    rfl

/-! ## Successive calls -/

/-- Successive `remove_framing/2` calls, one for each chunk: what each call returns. -/
def removeAll : List (List β) → State β → Option (List (Rc × List (Message β) × State β))
  | [], _ => some []
  | d :: ds, s =>
    match removeFraming d s with
    | none => none
    | some (rc, ms, s') =>
      match removeAll ds s' with
      | none => none
      | some rest => some ((rc, ms, s') :: rest)

/-- The messages of successive calls, concatenated. -/
def messages (results : List (Rc × List (Message β) × State β)) : List (Message β) :=
  results.flatMap fun r => r.2.1

/-- The state after successive calls from `s`. -/
def lastState (s : State β) (results : List (Rc × List (Message β) × State β)) : State β :=
  (results.getLast?.map fun r => r.2.2).getD s

theorem removeFraming_eq (f : Framer β) (d : List β) :
    removeFraming d f.state =
      some ((f.removeFraming d).1, (f.removeFraming d).2.1, (f.removeFraming d).2.2.state) := by
  obtain ⟨ms, p', t', hp⟩ := f.exists_process d
  obtain ⟨hok, heq⟩ := Framer.removeFraming_of_process hp
  rw [heq]
  exact removeFraming_iff.mpr ⟨p', t', hp, rfl, rfl⟩

/-- The code is `:ok` exactly when the buffer is empty. -/
theorem rc_eq_ok_iff {data : List β} {s s' : State β} {rc : Rc} {ms : List (Message β)}
    (h : removeFraming data s = some (rc, ms, s')) :
    rc = .ok ↔ s'.processed = [] ∧ s'.inProcess = [] := by
  obtain ⟨p', t', -, -, rfl⟩ := removeFraming_iff.mp h
  simp [bufferEmpty]

/-- Successive calls on a framer return, and are the machine fed chunk by chunk. -/
theorem removeAll_eq_feedAll (ds : List (List β)) (f : Framer β) :
    ∃ results, removeAll ds f.state = some results ∧
      messages results = (feedAll Framer.feed ds f).1 ∧
      lastState f.state results = (feedAll Framer.feed ds f).2.state ∧
      ∀ r ∈ results, r.1 = .ok ↔ r.2.2.processed = [] ∧ r.2.2.inProcess = [] := by
  induction ds generalizing f with
  | nil => exact ⟨[], rfl, rfl, rfl, by simp⟩
  | cons d ds ih =>
    have heq := removeFraming_eq f d
    obtain ⟨rest, hrest, hms, hlast, hrc⟩ := ih (f.removeFraming d).2.2
    have hall : removeAll (d :: ds) f.state = some (((f.removeFraming d).1,
        (f.removeFraming d).2.1, (f.removeFraming d).2.2.state) :: rest) := by
      simp only [removeAll, heq, hrest]
    refine ⟨_, hall, ?_, ?_, ?_⟩
    · simp [messages, feedAll, Framer.feed, ← hms]
    · rw [feedAll, Framer.feed, ← hlast]
      cases rest with
      | nil => rfl
      | cons r rs => simp [lastState, List.getLast?_cons]
    · rintro r (_ | ⟨_, hr⟩)
      · exact rc_eq_ok_iff heq
      · exact hrc r hr

/-- **The line framer is its reference, under every chunking.** Cut the stream in any way
and hand the pieces to successive `remove_framing/2` calls, from `init`:

* the calls return, and their messages and last state are those of one call on the stream;
* joined, the messages are the stream's lines, cut at the leftmost non-overlapping
  occurrences of the separator, and the trailing run with the buffer is the rest;
* the messages are each line's `report`, and partials of the line in progress;
* every partial has exactly `max_length` bytes;
* each call's code is `:ok` exactly when it leaves nothing buffered. -/
theorem removeAll_splits {separator : List UInt8} {maxLength : Nat} (hsep : separator ≠ [])
    (hmax : 1 ≤ maxLength) (chunks : List (List β)) :
    let s₀ : State β := init ⟨some maxLength, some separator⟩
    ∃ results, removeAll chunks s₀ = some results ∧
      (∃ rc, removeFraming chunks.flatten s₀ =
        some (rc, messages results, lastState s₀ results)) ∧
      Split Octet.val separator chunks.flatten (joinPartials [] (messages results)).1
        ((joinPartials [] (messages results)).2 ++
          ((lastState s₀ results).processed ++ (lastState s₀ results).inProcess)) ∧
      (∃ trail : List (List β), messages results =
        (joinPartials [] (messages results)).1.flatMap (report maxLength) ++ trail.map .part) ∧
      (∀ d, .part d ∈ messages results → d.length = maxLength) ∧
      ∀ r ∈ results, r.1 = .ok ↔ r.2.2.processed = [] ∧ r.2.2.inProcess = [] := by
  intro s₀
  let f₀ : Framer β := ⟨s₀, init_ok hmax hsep⟩
  obtain ⟨results, hres, hms, hlast, hrc⟩ := removeAll_eq_feedAll chunks f₀
  rw [Framer.chunked.feedAll_eq chunks trivial] at hms hlast
  obtain ⟨ms, p', t', hp⟩ := f₀.exists_process chunks.flatten
  obtain ⟨hok, heq⟩ := Framer.removeFraming_of_process hp
  simp only [Framer.feed, heq] at hms hlast
  obtain ⟨lines, trail, hlines, htrail, hsplit⟩ :=
    hp.split hmax (Nat.zero_le _) (fun i hi => absurd hi (by simp [f₀, s₀, init]))
  have hjoin : joinPartials [] ms = (lines, trail.flatten) := by
    rw [hlines, joinPartials_lines]
  have hlast' : lastState s₀ results = { s₀ with processed := p', inProcess := t' } := hlast
  have hone := removeFraming_eq f₀ chunks.flatten
  rw [heq] at hone
  refine ⟨results, hres, ?_, ?_, ⟨trail, ?_⟩, ?_, hrc⟩
  · rw [hms, hlast']
    exact ⟨_, hone⟩
  · rw [hms, hjoin, hlast']
    exact hsplit
  · rw [hms, hjoin]
    exact hlines
  · intro d hd
    rw [hms, hlines, List.mem_append] at hd
    rcases hd with hd | hd
    · obtain ⟨line, -, hmem⟩ := List.mem_flatMap.mp hd
      exact length_of_part_mem_report hmax hmem
    · obtain ⟨d', hd', heq'⟩ := List.mem_map.mp hd
      cases heq'
      exact htrail d hd'

/-- A separator that overlaps itself, cut between two calls, ends the line at the first place where
it fits; its last byte is data of the next line. -/
theorem removeAll_splits_overlap :
    removeAll [[65, 13], [13, 13, 66]] (init ⟨some 2, some [13, 13]⟩ : State UInt8) =
        some [(.inFrame, [], ⟨2, [13, 13], [65], [13]⟩),
          (.inFrame, [.whole [65]], ⟨2, [13, 13], [13], [66]⟩)] ∧
      ∃ results, removeAll [[65, 13], [13, 13, 66]]
        (init ⟨some 2, some [13, 13]⟩ : State UInt8) = some results := by
  refine ⟨by decide, ?_⟩
  obtain ⟨results, h, -⟩ := @removeAll_splits UInt8 _ [13, 13] 2 (by decide) (by decide)
    [[65, 13], [13, 13, 66]]
  exact ⟨results, h⟩

end CircuitsUart.Line
