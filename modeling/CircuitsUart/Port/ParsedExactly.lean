import CircuitsUart.Port.OptionList

/-!
# When an option list is parsed exactly

A pair with a known key and a value of the wrong kind is to refuse the list, any other pair with a
known key to set its field, and the rest to be skipped. `parse_option_list` strays from that where
an atom names no parity or flow control, where an atom is longer than the buffer it is read into,
where a key is no atom, and where an integer does not fit.

The loop is brought down to its pairs in two steps. `parseTurn_entry`: one turn takes one pair,
whatever is inside it, and leaves the cursor at the next; it needs `ei_skip_term` for that. Then the
loop is a fold over pairs (`settle`), and no cursor is left in what follows.

`Readable` is a condition on the list alone. It compares the last setting that is taken for a key
with the last one that is given, not pair by pair: what a pair was misread for does no harm if
a later one sets its field.
-/

set_option autoImplicit false

namespace CircuitsUart

open Lib

namespace Port

/-! ## What a list says -/

/-- A pair of a key and a value. -/
abbrev Entry := ExtTerm × ExtTerm

def Entry.term (e : Entry) : ExtTerm := .tuple [e.1, e.2]

/-- The encoded list. -/
def encodeEntries : List Entry → ExtTerm
  | [] => .nil
  | e :: es => .list ((e :: es).map Entry.term) .nil

def knownKey : ExtTerm → Option Key
  | .atom name => Key.find name
  | _ => none

def booleanGiven : ExtTerm → Option Bool
  | .atom "true" => some true
  | .atom "false" => some false
  | _ => none

def integerGiven : ExtTerm → Option Int
  | .int v => some v
  | _ => none

def atomGiven : ExtTerm → Option String
  | .atom name => some name
  | _ => none

/-- The setting that a value of the documented kind gives. -/
def Key.given : Key → ExtTerm → Option Setting
  | .active, value => (booleanGiven value).map .active
  | .speed, value => (integerGiven value).map .speed
  | .dataBits, value => (integerGiven value).map .dataBits
  | .stopBits, value => (integerGiven value).map .stopBits
  | .parity, value => (atomGiven value).bind fun name => (decodeParity name).map .parity
  | .flowControl, value =>
    (atomGiven value).bind fun name => (decodeFlowControl name).map .flowControl
  | .rs485Enabled, value => (booleanGiven value).map fun v => .rs485Enabled (ofBool v)
  | .rs485RtsOnSend, value => (booleanGiven value).map fun v => .rs485RtsOnSend (ofBool v)
  | .rs485RtsAfterSend, value => (booleanGiven value).map fun v => .rs485RtsAfterSend (ofBool v)
  | .rs485RxDuringTx, value => (booleanGiven value).map fun v => .rs485RxDuringTx (ofBool v)
  | .rs485TerminateBus, value => (booleanGiven value).map fun v => .rs485TerminateBus (ofBool v)
  | .rs485DelayRtsBeforeSend, value => (integerGiven value).map .rs485DelayRtsBeforeSend
  | .rs485DelayRtsAfterSend, value => (integerGiven value).map .rs485DelayRtsAfterSend

/-- The setting a pair gives. -/
def given (e : Entry) : Option Setting := (knownKey e.1).bind fun key => key.given e.2

/-- A known key with a value that is not of its kind. -/
def Wrong (e : Entry) : Prop := ∃ key, knownKey e.1 = some key ∧ key.given e.2 = none

/-! ## What the code makes of it -/

/-- What a pair is taken for. -/
def reading (e : Entry) : Verdict (Option Setting) :=
  (eiDecodeAtom 64 e.1.head).bind fun key =>
    match Key.find key with
    | none => .ok none
    | some key => key.decode e.2.head

def Taken (e : Entry) : Prop := ∃ setting, reading e = .ok setting

/-- The setting that the code takes from a pair. -/
def taken (e : Entry) : Option Setting :=
  match reading e with
  | .ok setting => setting
  | _ => none

/-- The first pair that is not taken is refused. -/
def FirstRefused (entries : List Entry) : Prop :=
  ∃ before e after, entries = before ++ e :: after ∧ (∀ b ∈ before, Taken b) ∧
    reading e = .failed

/-! ## The cursor -/

theorem exists_tags (t : ExtTerm) : ∃ inner, t.tags = t.head :: inner := by
  cases t <;> exact ⟨_, rfl⟩

/-- A value that a branch can decode is one tag, and the cursor stands behind it. -/
theorem tags_of_decode {key : Key} {t : ExtTerm} {setting : Option Setting}
    (h : key.decode t.head = .ok setting) : t.tags = [t.head] := by
  cases t with
  | int | float | atom | binary | string | nil | other => rfl
  | tuple elems => cases key <;> exact absurd h (by simp [Key.decode, ExtTerm.head, eiDecodeAtom,
      eiDecodeBoolean, eiDecodeLong, Verdict.map])
  | list elems tail => cases key <;> exact absurd h (by simp [Key.decode, ExtTerm.head,
      eiDecodeAtom, eiDecodeBoolean, eiDecodeLong, Verdict.map])
  | map keysAndValues => cases key <;> exact absurd h (by simp [Key.decode, ExtTerm.head,
      eiDecodeAtom, eiDecodeBoolean, eiDecodeLong, Verdict.map])

theorem tags_of_atom {size : Nat} {t : ExtTerm} {name : String}
    (h : eiDecodeAtom size t.head = .ok name) : t.tags = [t.head] := by
  cases t with
  | int | float | atom | binary | string | nil | other => rfl
  | tuple elems => exact absurd h (by simp [ExtTerm.head, eiDecodeAtom])
  | list elems tail => exact absurd h (by simp [ExtTerm.head, eiDecodeAtom])
  | map keysAndValues => exact absurd h (by simp [ExtTerm.head, eiDecodeAtom])

/-- **One turn takes one pair**, and leaves the cursor behind it. -/
theorem parseTurn_entry (config : UartConfig) (e : Entry) (rest : List Etf.Tag) :
    parseTurn config (e.term.tags ++ rest) =
      (reading e).map fun setting => (assign config setting, rest) := by
  obtain ⟨key, value⟩ := e
  have pair : (Entry.term (key, value)).tags ++ rest =
      .tuple 2 :: (key.tags ++ (value.tags ++ rest)) := by
    simp [Entry.term, ExtTerm.tags, tagsAll]
  obtain ⟨inKey, hkey⟩ := exists_tags key
  obtain ⟨inValue, hvalue⟩ := exists_tags value
  rw [pair, hkey]
  show (eiDecodeAtom 64 key.head).bind _ = ((eiDecodeAtom 64 key.head).bind _).map _
  cases decoded : eiDecodeAtom 64 key.head with
  | failed => rfl
  | overrun => rfl
  | ok name =>
    have alone := tags_of_atom decoded
    rw [hkey] at alone
    obtain rfl := (List.cons.inj alone).2
    simp only [Verdict.bind]
    cases Key.find name with
    | none =>
      show Verdict.ok (config, skipTerm (value.tags ++ rest)) = _
      rw [skipTerm_tags]
      rfl
    | some known =>
      rw [hvalue]
      show (known.decode value.head).map _ = (known.decode value.head).map _
      cases branch : known.decode value.head with
      | failed => rfl
      | overrun => rfl
      | ok setting =>
        have alone := tags_of_decode branch
        rw [hvalue] at alone
        obtain rfl := (List.cons.inj alone).2
        rfl

/-! ## The loop -/

/-- The settings that the pairs are taken for, one pair after another. -/
def settle : List Entry → Verdict (List Setting)
  | [] => .ok []
  | e :: es => (reading e).bind fun setting => (settle es).map (setting.toList ++ ·)

theorem writes_assign (config : UartConfig) (setting : Option Setting) (settings : List Setting) :
    optionFields.writes (setting.toList ++ settings) config =
      optionFields.writes settings (assign config setting) := by
  cases setting <;> rfl

/-- **The loop takes the pairs in their order.** -/
theorem parseTurns_entries (config : UartConfig) (entries : List Entry) (rest : List Etf.Tag) :
    parseTurns entries.length config (tagsAll (entries.map Entry.term) ++ rest) =
      (settle entries).map fun settings => (optionFields.writes settings config, rest) := by
  induction entries generalizing config with
  | nil => rfl
  | cons e es ih =>
    have turn := parseTurn_entry config e (tagsAll (es.map Entry.term) ++ rest)
    rw [← List.append_assoc] at turn
    show (parseTurn config (e.term.tags ++ tagsAll (es.map Entry.term) ++ rest)).bind _ = _
    rw [turn, settle]
    cases reading e with
    | failed => rfl
    | overrun => rfl
    | ok setting =>
      show parseTurns es.length (assign config setting) _ = _
      rw [ih]
      cases settle es with
      | failed => rfl
      | overrun => rfl
      | ok settings =>
        have order := writes_assign config setting settings
        exact congrArg (fun config' => Verdict.ok (config', rest)) order.symm

theorem parseOptionListAt_entries (config : UartConfig) (entries : List Entry)
    (rest : List Etf.Tag) :
    parseOptionListAt config ((encodeEntries entries).tags ++ rest) =
      (settle entries).map fun settings => (optionFields.writes settings config, .nil :: rest) := by
  cases entries with
  | nil => rfl
  | cons e es =>
    have turns := parseTurns_entries config (e :: es) (.nil :: rest)
    have stream : (encodeEntries (e :: es)).tags ++ rest =
        .list (e :: es).length :: (tagsAll ((e :: es).map Entry.term) ++ .nil :: rest) := by
      simp [encodeEntries, ExtTerm.tags]
    rw [stream]
    exact turns

/-- Pairs that are taken leave their settings in front. -/
theorem settle_append {before : List Entry} (all : ∀ b ∈ before, Taken b) (entries : List Entry) :
    settle (before ++ entries) = (settle entries).map (before.filterMap taken ++ ·) := by
  induction before with
  | nil => cases h : settle entries <;> simp [h, Verdict.map]
  | cons b bs ih =>
    obtain ⟨setting, reads⟩ := all b (List.mem_cons_self ..)
    have rest := ih fun b' inside => all b' (List.mem_cons_of_mem _ inside)
    have here : taken b = setting := by
      unfold taken
      rw [reads]
    rw [List.cons_append, settle, reads, rest, List.filterMap_cons, here]
    cases setting <;> cases settle entries <;> rfl

/-- The list is taken if every pair is. -/
theorem settle_of_taken {entries : List Entry} (all : ∀ e ∈ entries, Taken e) :
    settle entries = .ok (entries.filterMap taken) := by
  have whole := settle_append all []
  rw [List.append_nil] at whole
  rw [whole]
  exact congrArg Verdict.ok (List.append_nil _)

theorem settle_of_not_taken {before : List Entry} {e : Entry} (after : List Entry)
    (all : ∀ b ∈ before, Taken b) (stops : ¬ Taken e) :
    (reading e = .failed ∧ settle (before ++ e :: after) = .failed) ∨
      (reading e = .overrun ∧ settle (before ++ e :: after) = .overrun) := by
  rw [settle_append all, settle]
  cases reads : reading e with
  | ok setting => exact absurd ⟨setting, reads⟩ stops
  | failed => exact .inl ⟨rfl, rfl⟩
  | overrun => exact .inr ⟨rfl, rfl⟩

/-- All pairs are taken, or there is a first one that is not. -/
theorem taken_or_first (entries : List Entry) :
    (∀ e ∈ entries, Taken e) ∨ ∃ before e after, entries = before ++ e :: after ∧
      (∀ b ∈ before, Taken b) ∧ ¬ Taken e := by
  induction entries with
  | nil => exact .inl fun _ inside => absurd inside (by simp)
  | cons e es ih =>
    by_cases here : Taken e
    · obtain all | ⟨before, stop, after, rfl, all, stops⟩ := ih
      · exact .inl (List.forall_mem_cons.mpr ⟨here, all⟩)
      · exact .inr ⟨e :: before, stop, after, rfl, List.forall_mem_cons.mpr ⟨here, all⟩, stops⟩
    · exact .inr ⟨[], e, es, rfl, by simp, here⟩

theorem settle_eq_ok {entries : List Entry} {settings : List Setting} :
    settle entries = .ok settings ↔
      (∀ e ∈ entries, Taken e) ∧ entries.filterMap taken = settings := by
  constructor
  · intro settles
    obtain all | ⟨before, e, after, rfl, all, stops⟩ := taken_or_first entries
    · rw [settle_of_taken all] at settles
      exact ⟨all, Verdict.ok.inj settles⟩
    · obtain ⟨-, other⟩ | ⟨-, other⟩ := settle_of_not_taken after all stops
      · exact absurd (settles.symm.trans other) (by simp)
      · exact absurd (settles.symm.trans other) (by simp)
  · intro ⟨all, same⟩
    rw [settle_of_taken all, same]

/-- The list is refused if the first pair that is not taken is. -/
theorem settle_eq_failed {entries : List Entry} :
    settle entries = .failed ↔ FirstRefused entries := by
  constructor
  · intro settles
    obtain all | ⟨before, e, after, rfl, all, stops⟩ := taken_or_first entries
    · rw [settle_of_taken all] at settles
      exact absurd settles (by simp)
    · obtain ⟨refuses, -⟩ | ⟨-, other⟩ := settle_of_not_taken after all stops
      · exact ⟨before, e, after, rfl, all, refuses⟩
      · exact absurd (settles.symm.trans other) (by simp)
  · intro ⟨before, e, after, split, all, refuses⟩
    rw [split, settle_append all, settle, refuses]
    rfl

/-! ## The options of the API -/

mutual

/-- A term that the program looks into, in the external format. -/
def termExt : Term → ExtTerm
  | .atom name => .atom name
  | .int value => .int value
  | .binary bytes => .binary bytes
  | .tuple elems => .tuple (termExts elems)
  | .list [] => .nil
  | .list (t :: ts) => .list (termExt t :: termExts ts) .nil

def termExts : List Term → List ExtTerm
  | [] => []
  | t :: ts => termExt t :: termExts ts

end

/-- The pair of an option. -/
def optionEntry (o : UartOption) : Entry :=
  match o.encode with
  | .tuple [key, value] => (termExt key, termExt value)
  | _ => (.nil, .nil)

/-- The two readings of a value are the same: a setting, or a refusal. -/
def Agree (config : UartConfig) (read : Verdict (Option Setting)) (parsed : Option UartConfig) :
    Prop :=
  (∃ setting, read = .ok setting ∧ parsed = some (assign config setting)) ∨
    (read = .failed ∧ parsed = none)

theorem agree_long (config : UartConfig) (v : Int) (setting : Int → Setting) :
    Agree config ((eiDecodeLong (.int v)).map fun v => some (setting v))
      ((decodeLong (.int v)).map fun v => (setting v).apply config) := by
  unfold eiDecodeLong decodeLong
  by_cases fits : LONG_MIN ≤ v ∧ v ≤ LONG_MAX
  · simp only [if_pos fits]
    exact .inl ⟨_, rfl, rfl⟩
  · simp only [if_neg fits]
    exact .inr ⟨rfl, rfl⟩

/-- What `parseOption` does with an option of the API is what is read from its tags. -/
theorem agree_option (config : UartConfig) (o : UartOption) :
    Agree config (reading (optionEntry o)) (parseOption config o.encode) := by
  cases o with
  | active v => cases v <;> exact .inl ⟨_, rfl, rfl⟩
  | speed v => exact agree_long config v fun v => .speed (toInt v)
  | dataBits v => exact agree_long config v fun v => .dataBits (toInt v)
  | stopBits v => exact agree_long config v fun v => .stopBits (toInt v)
  | parity v => cases v <;> exact .inl ⟨_, rfl, rfl⟩
  | flowControl v => cases v <;> exact .inl ⟨_, rfl, rfl⟩
  | framing v => cases v <;> exact .inl ⟨_, rfl, rfl⟩
  | rxFramingTimeout v => exact .inl ⟨_, rfl, rfl⟩
  | id v => exact .inl ⟨_, rfl, rfl⟩
  | rs485Enabled v => cases v <;> exact .inl ⟨_, rfl, rfl⟩
  | rs485RtsOnSend v => cases v <;> exact .inl ⟨_, rfl, rfl⟩
  | rs485RtsAfterSend v => cases v <;> exact .inl ⟨_, rfl, rfl⟩
  | rs485RxDuringTx v => cases v <;> exact .inl ⟨_, rfl, rfl⟩
  | rs485TerminateBus v => cases v <;> exact .inl ⟨_, rfl, rfl⟩
  | rs485DelayRtsBeforeSend v => exact agree_long config v .rs485DelayRtsBeforeSend
  | rs485DelayRtsAfterSend v => exact agree_long config v .rs485DelayRtsAfterSend

/-- **Options of the API are parsed at the cursor as they are one term after another.** -/
theorem parseOptionListAt_options (config : UartConfig) (opts : List UartOption)
    (rest : List Etf.Tag) :
    parseOptionListAt config ((encodeEntries (opts.map optionEntry)).tags ++ rest) =
      match configure config opts with
      | some config' => .ok (config', .nil :: rest)
      | none => .failed := by
  rw [parseOptionListAt_entries]
  induction opts generalizing config with
  | nil => rfl
  | cons o opts ih =>
    rw [List.map_cons, settle, configure_cons]
    obtain ⟨setting, reads, parses⟩ | ⟨reads, parses⟩ := agree_option config o
    · rw [reads, parses, Option.bind_some, ← ih (assign config setting)]
      cases settle (opts.map optionEntry) with
      | ok settings =>
        have order := writes_assign config setting settings
        exact congrArg (fun config' => Verdict.ok (config', Etf.Tag.nil :: rest)) order
      | failed => rfl
      | overrun => rfl
    · rw [reads, parses]
      rfl

end Port

namespace Program

open Port

theorem handleConfigureAt_options {β : Type} (os : Os β) (opts : List UartOption)
    (p : Program β) (rest : List Etf.Tag) :
    p.handleConfigureAt os ((encodeEntries (opts.map optionEntry)).tags ++ rest) =
      some (p.handleConfigure os opts) := by
  unfold handleConfigureAt handleConfigure
  rw [parseOptionListAt_options]
  cases configure p.currentConfig opts <;> rfl

theorem handleOpenAt_options {β : Type} (os : Os β) (name : List UInt8) (opts : List UartOption)
    (p : Program β) (rest : List Etf.Tag) :
    p.handleOpenAt os name ((encodeEntries (opts.map optionEntry)).tags ++ rest) =
      some (p.handleOpen os name opts) := by
  unfold handleOpenAt handleOpen
  rw [parseOptionListAt_options]
  split
  · rfl
  · cases configure p.currentConfig opts <;> rfl

end Program

namespace Port

/-! ## Two lists of settings -/

/-- Settings of a key that differ. -/
def Setting.other : Setting → Setting
  | .active v => .active !v
  | .speed v => .speed (v + 1)
  | .dataBits v => .dataBits (v + 1)
  | .stopBits v => .stopBits (v + 1)
  | .parity v => .parity (if v = .none then .even else .none)
  | .flowControl v => .flowControl (if v = .none then .hardware else .none)
  | .rs485Enabled v => .rs485Enabled (v + 1)
  | .rs485RtsOnSend v => .rs485RtsOnSend (v + 1)
  | .rs485RtsAfterSend v => .rs485RtsAfterSend (v + 1)
  | .rs485RxDuringTx v => .rs485RxDuringTx (v + 1)
  | .rs485TerminateBus v => .rs485TerminateBus (v + 1)
  | .rs485DelayRtsBeforeSend v => .rs485DelayRtsBeforeSend (v + 1)
  | .rs485DelayRtsAfterSend v => .rs485DelayRtsAfterSend (v + 1)

theorem Setting.other_ne (s : Setting) : s.other ≠ s := by
  cases s with
  | parity v => cases v <;> simp [Setting.other]
  | flowControl v => cases v <;> simp [Setting.other]
  | _ => simp [Setting.other]

@[simp] theorem Setting.key_other (s : Setting) : s.other.key = s.key := by cases s <;> rfl

/-- The keys whose settings mark the configuration as the user's. -/
def Key.rs485 : Key → Bool
  | .active | .speed | .dataBits | .stopBits | .parity | .flowControl => false
  | _ => true

theorem userConfigured_apply (s : Setting) (config : UartConfig) :
    (s.apply config).rs485UserConfigured = (config.rs485UserConfigured || s.key.rs485) := by
  cases s <;> simp [Setting.apply, Setting.key, Key.rs485]

theorem userConfigured_writes (settings : List Setting) (config : UartConfig) :
    (optionFields.writes settings config).rs485UserConfigured =
      (config.rs485UserConfigured || settings.any fun s => s.key.rs485) := by
  induction settings generalizing config with
  | nil => exact (Bool.or_false _).symm
  | cons s settings ih =>
    show (optionFields.writes settings (s.apply config)).rs485UserConfigured = _
    rw [ih, userConfigured_apply, List.any_cons, Bool.or_assoc]

theorem config_eq {a b : UartConfig} (fields : ∀ key, a.setting key = b.setting key)
    (user : a.rs485UserConfigured = b.rs485UserConfigured) : a = b := by
  cases a
  cases b
  rw [UartConfig.mk.injEq]
  exact ⟨Setting.active.inj (fields .active), Setting.speed.inj (fields .speed),
    Setting.dataBits.inj (fields .dataBits), Setting.stopBits.inj (fields .stopBits),
    Setting.parity.inj (fields .parity), Setting.flowControl.inj (fields .flowControl), user,
    Setting.rs485Enabled.inj (fields .rs485Enabled),
    Setting.rs485RtsOnSend.inj (fields .rs485RtsOnSend),
    Setting.rs485RtsAfterSend.inj (fields .rs485RtsAfterSend),
    Setting.rs485RxDuringTx.inj (fields .rs485RxDuringTx),
    Setting.rs485TerminateBus.inj (fields .rs485TerminateBus),
    Setting.rs485DelayRtsBeforeSend.inj (fields .rs485DelayRtsBeforeSend),
    Setting.rs485DelayRtsAfterSend.inj (fields .rs485DelayRtsAfterSend)⟩

/-- A setting of the user's RS485 is there if one of its keys has a last setting. -/
theorem any_rs485_iff (settings : List Setting) :
    (settings.any fun s => s.key.rs485) = true ↔
      ∃ key : Key, key.rs485 = true ∧ (optionFields.last key settings).isSome = true := by
  rw [List.any_eq_true]
  constructor
  · intro ⟨s, inside, user⟩
    exact ⟨s.key, user, optionFields.last_isSome.mpr ⟨s, inside, rfl⟩⟩
  · intro ⟨key, user, some_last⟩
    obtain ⟨s, inside, same⟩ := optionFields.last_isSome.mp some_last
    exact ⟨s, inside, by rw [show s.key = key from same]; exact user⟩

/-- No setting is one that every configuration has. -/
theorem exists_setting_ne (s : Setting) : ∃ config : UartConfig, config.setting s.key ≠ s := by
  have written := optionFields.read_write s.key s.other uartDefaultConfig
  rw [if_pos (show optionFields.key s.other = s.key from s.key_other)] at written
  refine ⟨s.other.apply uartDefaultConfig, ?_⟩
  rw [show (s.other.apply uartDefaultConfig).setting s.key = s.other from written]
  exact s.other_ne

/-- **Two lists of settings do the same to every configuration exactly if their last settings
agree.** -/
theorem writes_eq_iff (settings settings' : List Setting) :
    (∀ config, optionFields.writes settings config = optionFields.writes settings' config) ↔
      ∀ key, optionFields.last key settings = optionFields.last key settings' := by
  constructor
  · intro same key
    -- a field that one list leaves would have to have the other's value already
    have read (config : UartConfig) :
        (optionFields.last key settings).getD (config.setting key) =
          (optionFields.last key settings').getD (config.setting key) := by
      have := congrArg (UartConfig.setting key) (same config)
      rw [← show optionFields.read = UartConfig.setting from rfl] at this
      rwa [optionFields.read_writes, optionFields.read_writes] at this
    cases h : optionFields.last key settings with
    | some s =>
      cases h' : optionFields.last key settings' with
      | some s' =>
        have := read uartDefaultConfig
        rw [h, h'] at this
        exact congrArg some this
      | none =>
        obtain ⟨config, differs⟩ := exists_setting_ne s
        rw [show s.key = key from (optionFields.mem_of_last h).2] at differs
        have := read config
        rw [h, h'] at this
        exact absurd this.symm differs
    | none =>
      cases h' : optionFields.last key settings' with
      | none => rfl
      | some s' =>
        obtain ⟨config, differs⟩ := exists_setting_ne s'
        rw [show s'.key = key from (optionFields.mem_of_last h').2] at differs
        have := read config
        rw [h, h'] at this
        exact absurd this differs
  · intro same config
    apply config_eq
    · intro key
      have read := optionFields.read_writes key settings config
      rw [same key, ← optionFields.read_writes key settings' config] at read
      exact read
    · rw [userConfigured_writes, userConfigured_writes]
      congr 1
      rw [Bool.eq_iff_iff, any_rs485_iff, any_rs485_iff]
      simp only [same]

/-! ## Every list -/

/-- `parse_option_list` does what a list says: it returns 0 exactly if every pair with a known key
has a value of its kind, with the configuration that the pairs give; otherwise it returns -1, and
of the caller's state nothing changes but that an error has been sent. -/
structure ParsedExactly (entries : List Entry) : Prop where
  takes : (∀ e ∈ entries, ¬ Wrong e) → ∀ config rest,
    parseOptionListAt config ((encodeEntries entries).tags ++ rest) =
      .ok (optionFields.writes (entries.filterMap given) config, .nil :: rest)
  refuses : (∃ e ∈ entries, Wrong e) → ∀ config rest,
    parseOptionListAt config ((encodeEntries entries).tags ++ rest) = .failed
  configure : (∃ e ∈ entries, Wrong e) → ∀ (β : Type) os (p : Program β) rest,
    p.handleConfigureAt os ((encodeEntries entries).tags ++ rest) =
      some (.ok { p with out := p.out ++ [.response (.error .einval)] })
  «open» : (∃ e ∈ entries, Wrong e) → ∀ (β : Type) os name (p : Program β) rest,
    p.handleOpenAt os name ((encodeEntries entries).tags ++ rest) =
      some { p with out := p.out ++
        [.response (.error (if 64 ≤ name.length then .enoent else .einval))] }

/-- With a wrong value in the list, the first pair that is not taken is refused. With none, every
pair is taken, and for each key the last setting taken is the last one given. -/
structure Readable (entries : List Entry) : Prop where
  refused : (∃ e ∈ entries, Wrong e) → FirstRefused entries
  taken : (∀ e ∈ entries, ¬ Wrong e) → ∀ e ∈ entries, Taken e
  agree : (∀ e ∈ entries, ¬ Wrong e) → ∀ key,
    optionFields.last key (entries.filterMap Port.taken) =
      optionFields.last key (entries.filterMap given)

theorem parse_failed_iff (config : UartConfig) (entries : List Entry) (rest : List Etf.Tag) :
    parseOptionListAt config ((encodeEntries entries).tags ++ rest) = .failed ↔
      FirstRefused entries := by
  rw [parseOptionListAt_entries, ← settle_eq_failed]
  cases settle entries <;> simp [Verdict.map]

theorem parse_ok_iff (config config' : UartConfig) (entries : List Entry) (rest : List Etf.Tag) :
    parseOptionListAt config ((encodeEntries entries).tags ++ rest) = .ok (config', .nil :: rest) ↔
      (∀ e ∈ entries, Taken e) ∧ optionFields.writes (entries.filterMap taken) config = config' := by
  rw [parseOptionListAt_entries]
  constructor
  · intro parses
    cases settles : settle entries with
    | ok settings =>
      obtain ⟨all, rfl⟩ := settle_eq_ok.mp settles
      rw [settles] at parses
      exact ⟨all, congrArg Prod.fst (Verdict.ok.inj parses)⟩
    | failed => exact absurd parses (by simp [settles, Verdict.map])
    | overrun => exact absurd parses (by simp [settles, Verdict.map])
  · intro ⟨all, same⟩
    rw [settle_of_taken all, ← same]
    rfl

end Port

end CircuitsUart
