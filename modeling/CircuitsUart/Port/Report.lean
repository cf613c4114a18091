import CircuitsUart.Lib.Etf
import CircuitsUart.Port.Failure

/-!
# The configuration that is reported

`handle_configuration` writes `current_config` as a keyword list, one pair at a time, and
`parse_option_list` reads such a list. A configuration is reproduced by its report, but for
`rs485_user_configured`, exactly if it is `Complete`: no RS485 flag is unset while
`rs485_enabled` is set, for an unset flag is reported as `true`.

The two directions meet in the terms of the VM and not in tags, since the GenServer has the
report as a term and may pass it on as it is. That the tags which are written make a term at all
depends on the program counting its pairs right, in the header of the list that it writes first:
`decodeTerms_encodeConfiguration` is about that count.

Whether a configuration is complete is then followed through a run. An `open` or a `configure`
adopts the configuration it was given, with the RS485 settings read back from the device where
that can be done, and what is read back has no unset flag. What is left are the cases in which
nothing is read back.
-/

set_option autoImplicit false

namespace CircuitsUart

open Lib

/-! ## Terms -/

mutual

/-- A term as the VM has it. -/
def Term.etf : Term → Etf.Term
  | .atom name => .atom name
  | .int value => .int value
  | .binary bytes => .binary bytes
  | .tuple elems => .tuple (termsEtf elems)
  | .list elems => cellsEtf elems

def termsEtf : List Term → List Etf.Term
  | [] => []
  | t :: ts => t.etf :: termsEtf ts

def cellsEtf : List Term → Etf.Term
  | [] => .nil
  | t :: ts => .cons t.etf (cellsEtf ts)

end

mutual

/-- The other way. The API has no floats, and no maps but that of the signals. -/
def Term.ofEtf : Etf.Term → Option Term
  | .atom name => some (.atom name)
  | .int value => some (.int value)
  | .binary bytes => some (.binary bytes)
  | .nil => some (.list [])
  | .cons head tail =>
    (Term.ofEtf head).bind fun t =>
      match Term.ofEtf tail with
      | some (.list elems) => some (.list (t :: elems))
      | _ => none
  | .tuple elems => (termsOfEtf elems).map .tuple
  | .float _ | .map _ => none

def termsOfEtf : List Etf.Term → Option (List Term)
  | [] => some []
  | t :: ts => (Term.ofEtf t).bind fun t => (termsOfEtf ts).map (t :: ·)

end

mutual

theorem Term.ofEtf_etf : (t : Term) → Term.ofEtf t.etf = some t
  | .atom _ | .int _ | .binary _ => rfl
  | .tuple elems => by rw [Term.etf, Term.ofEtf, termsOfEtf_termsEtf elems, Option.map_some]
  | .list elems => ofEtf_cellsEtf elems

theorem termsOfEtf_termsEtf : (ts : List Term) → termsOfEtf (termsEtf ts) = some ts
  | [] => rfl
  | t :: ts => by
    rw [termsEtf, termsOfEtf, Term.ofEtf_etf t, Option.bind_some, termsOfEtf_termsEtf ts]
    rfl

theorem ofEtf_cellsEtf : (ts : List Term) → Term.ofEtf (cellsEtf ts) = some (.list ts)
  | [] => rfl
  | t :: ts => by
    rw [cellsEtf, Term.ofEtf, Term.ofEtf_etf t, Option.bind_some, ofEtf_cellsEtf ts]

end

namespace Port

/-! ## The response -/

/-- What the GenServer makes of a stream of tags. -/
def decodeTerms (tags : List Etf.Tag) : Option (List Term) := (Etf.ofTags tags).bind termsOfEtf

/-- `ei_encode_boolean`. -/
def encodeBoolean (value : Int) : Etf.Tag := .atom (if value ≠ 0 then "true" else "false")

/-- One more pair in the list that `handle_configuration` writes. -/
def encodePair (key : String) (value : Etf.Tag) : List Etf.Tag :=
  [.list 1, .tuple 2, .atom key, value]

/-- What `handle_configuration` writes. -/
def encodeConfiguration (config : UartConfig) : List Etf.Tag :=
  encodePair "speed" (.int config.speed) ++
    encodePair "data_bits" (.int config.dataBits) ++
    encodePair "stop_bits" (.int config.stopBits) ++
    encodePair "parity" (.atom config.parity.atom) ++
    encodePair "flow_control" (.atom config.flowControl.atom) ++
    (if -1 < config.rs485Enabled then
      encodePair "rs485_enabled" (encodeBoolean config.rs485Enabled) ++
        encodePair "rs485_rts_on_send" (encodeBoolean config.rs485RtsOnSend) ++
        encodePair "rs485_rts_after_send" (encodeBoolean config.rs485RtsAfterSend) ++
        encodePair "rs485_rx_during_tx" (encodeBoolean config.rs485RxDuringTx) ++
        encodePair "rs485_terminate_bus" (encodeBoolean config.rs485TerminateBus) ++
        encodePair "rs485_delay_rts_before_send" (.int config.rs485DelayRtsBeforeSend) ++
        encodePair "rs485_delay_rts_after_send" (.int config.rs485DelayRtsAfterSend)
    else []) ++ [.nil]

section

variable {tags : List Etf.Tag} {opts : List Term} (h : Etf.ofTags tags = some [cellsEtf opts])

include h

theorem ofTags_pair {value : Etf.Tag} {v : Term} (key : String)
    (reads : ∀ ts, value.push ts = some (v.etf :: ts)) :
    Etf.ofTags (encodePair key value ++ tags) = some [cellsEtf (.pair key v :: opts)] := by
  have atValue : (Etf.ofTags tags).bind value.push = some [v.etf, cellsEtf opts] := by
    rw [h]
    exact reads _
  show (((((Etf.ofTags tags).bind value.push).bind (Etf.Tag.atom key).push).bind
    (Etf.Tag.tuple 2).push).bind (Etf.Tag.list 1).push) = _
  rw [atValue]
  rfl

theorem ofTags_int (key : String) (value : Int) :
    Etf.ofTags (encodePair key (.int value) ++ tags) =
      some [cellsEtf (.pair key (.int value) :: opts)] :=
  ofTags_pair h key fun _ => rfl

theorem ofTags_atom (key name : String) :
    Etf.ofTags (encodePair key (.atom name) ++ tags) =
      some [cellsEtf (.pair key (.atom name) :: opts)] :=
  ofTags_pair h key fun _ => rfl

theorem ofTags_boolean (key : String) (value : Int) :
    Etf.ofTags (encodePair key (encodeBoolean value) ++ tags) =
      some [cellsEtf (.pair key (.bool (value ≠ 0)) :: opts)] := by
  refine ofTags_pair h key fun ts => ?_
  unfold encodeBoolean Term.bool
  by_cases zero : value = 0
  · simp [zero, Etf.Tag.push, Term.etf]
  · simp [zero, Etf.Tag.push, Term.etf]

end

theorem ofTags_encodeConfiguration (config : UartConfig) :
    Etf.ofTags (encodeConfiguration config) = some [cellsEtf (reported config)] := by
  have line : ∀ {tags : List Etf.Tag} {opts : List Term},
      Etf.ofTags tags = some [cellsEtf opts] →
      Etf.ofTags (encodePair "speed" (.int config.speed) ++
        (encodePair "data_bits" (.int config.dataBits) ++
        (encodePair "stop_bits" (.int config.stopBits) ++
        (encodePair "parity" (.atom config.parity.atom) ++
        (encodePair "flow_control" (.atom config.flowControl.atom) ++ tags))))) =
          some [cellsEtf (lineReport config ++ opts)] := fun h => by
    apply ofTags_int
    apply ofTags_int
    apply ofTags_int
    apply ofTags_atom
    apply ofTags_atom
    exact h
  have ends : Etf.ofTags [.nil] = some [cellsEtf []] := rfl
  unfold encodeConfiguration reported
  by_cases set : -1 < config.rs485Enabled
  · rw [if_pos set, if_pos set]
    simp only [List.append_assoc]
    apply line
    apply ofTags_boolean
    apply ofTags_boolean
    apply ofTags_boolean
    apply ofTags_boolean
    apply ofTags_boolean
    apply ofTags_int
    apply ofTags_int
    exact ends
  · rw [if_neg set, if_neg set]
    simp only [List.append_assoc]
    exact line ends

/-- **The response is a proper list**, of the options reported. -/
theorem decodeTerms_encodeConfiguration (config : UartConfig) :
    decodeTerms (encodeConfiguration config) = some [.list (reported config)] := by
  rw [decodeTerms, ofTags_encodeConfiguration, Option.bind_some, termsOfEtf, ofEtf_cellsEtf]
  rfl

/-! ## Configurations -/

attribute [ext] UartConfig

/-- An RS485 flag: unset, `false` or `true`. -/
def IsTristate (v : Int) : Prop := v = -1 ∨ v = 0 ∨ v = 1

/-- The fields hold what their types can. -/
structure UartConfig.Ok (config : UartConfig) : Prop where
  speed : toInt config.speed = config.speed
  dataBits : toInt config.dataBits = config.dataBits
  stopBits : toInt config.stopBits = config.stopBits
  enabled : IsTristate config.rs485Enabled
  rtsOnSend : IsTristate config.rs485RtsOnSend
  rtsAfterSend : IsTristate config.rs485RtsAfterSend
  rxDuringTx : IsTristate config.rs485RxDuringTx
  terminateBus : IsTristate config.rs485TerminateBus
  delayBefore : LONG_MIN ≤ config.rs485DelayRtsBeforeSend ∧ config.rs485DelayRtsBeforeSend ≤ LONG_MAX
  delayAfter : LONG_MIN ≤ config.rs485DelayRtsAfterSend ∧ config.rs485DelayRtsAfterSend ≤ LONG_MAX

/-- RS485 is unset, or all of its flags are set. -/
def UartConfig.Complete (config : UartConfig) : Prop :=
  config.rs485Enabled = -1 ∨ config.rs485RtsOnSend ≠ -1 ∧ config.rs485RtsAfterSend ≠ -1 ∧
    config.rs485RxDuringTx ≠ -1 ∧ config.rs485TerminateBus ≠ -1

instance (config : UartConfig) : Decidable config.Complete := inferInstanceAs (Decidable (_ ∨ _))

/-- The response to `:configuration` is a keyword list, and parsing it reproduces the
configuration, but for `rs485_user_configured`. -/
def Reproduces (config : UartConfig) : Prop :=
  ∃ opts, decodeTerms (encodeConfiguration config) = some [.list opts] ∧
    (∀ o ∈ opts, ∃ key value, o = .pair key value) ∧
    ∃ config', parseOptionList config opts = some config' ∧
      { config' with rs485UserConfigured := config.rs485UserConfigured } = config

theorem toInt_toInt (v : Int) : toInt (toInt v) = toInt v := by
  unfold toInt
  rw [BitVec.ofInt_toInt]

/-- An `int` is a `long`. -/
theorem decodeLong_int {v : Int} (fits : toInt v = v) : decodeLong (.int v) = some v := by
  have low := BitVec.le_toInt (BitVec.ofInt 32 v)
  have high := BitVec.toInt_lt (x := BitVec.ofInt 32 v)
  have same : (BitVec.ofInt 32 v).toInt = v := fits
  rw [same] at low high
  unfold decodeLong LONG_MIN LONG_MAX
  exact if_pos (by constructor <;> omega)

theorem decodeLong_bounds {t : Term} {v : Int} (h : decodeLong t = some v) :
    LONG_MIN ≤ v ∧ v ≤ LONG_MAX := by
  unfold decodeLong at h
  split at h
  · split at h
    · next bounds =>
      rw [← Option.some.inj h]
      exact bounds
    · exact absurd h (by simp)
  · exact absurd h (by simp)

theorem decodeParity_atom (parity : Parity) : decodeParity parity.atom = some parity := by
  cases parity <;> rfl

theorem decodeFlowControl_atom (flowControl : FlowControl) :
    decodeFlowControl flowControl.atom = some flowControl := by
  cases flowControl <;> rfl

theorem isTristate_ofBool (v : Bool) : IsTristate (ofBool v) := by
  cases v
  · exact .inr (.inl rfl)
  · exact .inr (.inr rfl)

theorem uartDefaultConfig_ok : uartDefaultConfig.Ok := by
  constructor <;> first | decide | exact .inl rfl

/-- **One option keeps a configuration well formed.** -/
theorem parseOption_ok {config config' : UartConfig} {o : UartOption} (ok : config.Ok)
    (h : parseOption config o.encode = some config') : config'.Ok := by
  cases o <;>
    simp only [UartOption.encode, Term.pair, parseOption, parseValue, decodeBoolean_bool,
      Option.map_some, Option.map_eq_some_iff, Option.some.injEq] at h
  case active v => subst h; exact { ok with }
  case speed v =>
    obtain ⟨w, -, rfl⟩ := h
    exact { ok with speed := toInt_toInt w }
  case dataBits v =>
    obtain ⟨w, -, rfl⟩ := h
    exact { ok with dataBits := toInt_toInt w }
  case stopBits v =>
    obtain ⟨w, -, rfl⟩ := h
    exact { ok with stopBits := toInt_toInt w }
  case rs485Enabled v => subst h; exact { ok with enabled := isTristate_ofBool v }
  case rs485RtsOnSend v => subst h; exact { ok with rtsOnSend := isTristate_ofBool v }
  case rs485RtsAfterSend v => subst h; exact { ok with rtsAfterSend := isTristate_ofBool v }
  case rs485RxDuringTx v => subst h; exact { ok with rxDuringTx := isTristate_ofBool v }
  case rs485TerminateBus v => subst h; exact { ok with terminateBus := isTristate_ofBool v }
  case rs485DelayRtsBeforeSend v =>
    obtain ⟨w, hw, rfl⟩ := h
    exact { ok with delayBefore := decodeLong_bounds hw }
  case rs485DelayRtsAfterSend v =>
    obtain ⟨w, hw, rfl⟩ := h
    exact { ok with delayAfter := decodeLong_bounds hw }
  all_goals (obtain ⟨_, -, rfl⟩ := h; exact { ok with })

theorem configure_ok {config config' : UartConfig} {opts : List UartOption} (ok : config.Ok)
    (h : configure config opts = some config') : config'.Ok := by
  induction opts generalizing config with
  | nil => rw [← Option.some.inj h]; exact ok
  | cons o opts ih =>
    rw [configure_cons] at h
    obtain ⟨config₁, ho, hopts⟩ := Option.bind_eq_some_iff.mp h
    exact ih (parseOption_ok ok ho) hopts

theorem reportRs485_ok {config : UartConfig} (ok : config.Ok) (rs485 : SerialRs485) :
    (reportRs485 config rs485).Ok := by
  have delay : ∀ v : BitVec 32, LONG_MIN ≤ (v.toNat : Int) ∧ (v.toNat : Int) ≤ LONG_MAX := fun v => by
    have := v.isLt
    unfold LONG_MIN LONG_MAX
    constructor <;> omega
  exact {
    speed := ok.speed
    dataBits := ok.dataBits
    stopBits := ok.stopBits
    enabled := isTristate_ofBool _
    rtsOnSend := isTristate_ofBool _
    rtsAfterSend := isTristate_ofBool _
    rxDuringTx := isTristate_ofBool _
    terminateBus := isTristate_ofBool _
    delayBefore := delay _
    delayAfter := delay _ }

/-- What the device reports has no unset flag. -/
theorem reportRs485_complete (config : UartConfig) (rs485 : SerialRs485) :
    (reportRs485 config rs485).Complete := by
  have set : ∀ v : Bool, ofBool v ≠ -1 := fun v => by cases v <;> simp [ofBool]
  exact .inr ⟨set _, set _, set _, set _⟩

/-! ## Parsing the report -/

theorem parseOptionList_cons (config : UartConfig) (t : Term) (terms : List Term) :
    parseOptionList config (t :: terms) =
      (parseOption config t).bind fun config' => parseOptionList config' terms := rfl

/-- A term that sets what there is already. -/
theorem parseOptionList_same {config : UartConfig} {t : Term} (same : parseOption config t = some config)
    (terms : List Term) : parseOptionList config (t :: terms) = parseOptionList config terms := by
  rw [parseOptionList_cons, same]
  rfl

section

variable {config : UartConfig} (ok : config.Ok)

include ok

/-- The line settings set what there is already. -/
theorem parse_lineReport (terms : List Term) :
    parseOptionList config (lineReport config ++ terms) = parseOptionList config terms := by
  have speed : parseOption config (.pair "speed" (.int config.speed)) = some config := by
    show (decodeLong (.int config.speed)).map _ = _
    rw [decodeLong_int ok.speed, Option.map_some, ok.speed]
  have dataBits : parseOption config (.pair "data_bits" (.int config.dataBits)) = some config := by
    show (decodeLong (.int config.dataBits)).map _ = _
    rw [decodeLong_int ok.dataBits, Option.map_some, ok.dataBits]
  have stopBits : parseOption config (.pair "stop_bits" (.int config.stopBits)) = some config := by
    show (decodeLong (.int config.stopBits)).map _ = _
    rw [decodeLong_int ok.stopBits, Option.map_some, ok.stopBits]
  have parity : parseOption config (.pair "parity" (.atom config.parity.atom)) = some config := by
    show some { config with parity := (decodeParity config.parity.atom).getD config.parity } = _
    rw [decodeParity_atom]
    rfl
  have flowControl : parseOption config (.pair "flow_control" (.atom config.flowControl.atom)) =
      some config := by
    show some { config with
      flowControl := (decodeFlowControl config.flowControl.atom).getD config.flowControl } = _
    rw [decodeFlowControl_atom]
    rfl
  show parseOptionList config (_ :: _ :: _ :: _ :: _ :: terms) = _
  rw [parseOptionList_same speed, parseOptionList_same dataBits, parseOptionList_same stopBits,
    parseOptionList_same parity, parseOptionList_same flowControl]

/-- The configuration that a report with RS485 leaves: every flag is set. -/
theorem parse_rs485Report : parseOptionList config (rs485Report config) = some { config with
    rs485UserConfigured := true
    rs485Enabled := ofBool (config.rs485Enabled ≠ 0)
    rs485RtsOnSend := ofBool (config.rs485RtsOnSend ≠ 0)
    rs485RtsAfterSend := ofBool (config.rs485RtsAfterSend ≠ 0)
    rs485RxDuringTx := ofBool (config.rs485RxDuringTx ≠ 0)
    rs485TerminateBus := ofBool (config.rs485TerminateBus ≠ 0) } := by
  have flag : ∀ {key : String} {set : Bool → UartConfig → UartConfig},
      (∀ config v, parseOption config (.pair key v) = (decodeBoolean v).map fun v => set v config) →
      ∀ (config : UartConfig) (v : Bool) (terms : List Term),
        parseOptionList config (.pair key (.bool v) :: terms) =
          parseOptionList (set v config) terms := fun h config v terms => by
    rw [parseOptionList_cons, h, decodeBoolean_bool]
    rfl
  have delay : ∀ {key : String} {set : Int → UartConfig → UartConfig},
      (∀ config v, parseOption config (.pair key v) = (decodeLong v).map fun v => set v config) →
      ∀ (config : UartConfig) {v : Int} (terms : List Term), LONG_MIN ≤ v ∧ v ≤ LONG_MAX →
        parseOptionList config (.pair key (.int v) :: terms) =
          parseOptionList (set v config) terms := fun h config v terms bounds => by
    rw [parseOptionList_cons, h, show decodeLong (.int v) = some v from if_pos bounds]
    rfl
  unfold rs485Report
  rw [flag fun _ _ => rfl, flag fun _ _ => rfl, flag fun _ _ => rfl, flag fun _ _ => rfl,
    flag fun _ _ => rfl, delay (fun _ _ => rfl) _ _ ok.delayBefore,
    delay (fun _ _ => rfl) _ _ ok.delayAfter]
  rfl

end

/-- A flag that is reported is reproduced exactly if it is set. -/
theorem ofBool_eq_iff {v : Int} (tristate : IsTristate v) : ofBool (v ≠ 0) = v ↔ v ≠ -1 := by
  rcases tristate with rfl | rfl | rfl <;> decide

theorem reported_pair (config : UartConfig) : ∀ o ∈ reported config, ∃ key value, o = .pair key value := by
  intro o ho
  rcases List.mem_append.mp ho with line | rs485
  · simp only [lineReport, List.mem_cons, List.not_mem_nil, or_false] at line
    rcases line with rfl | rfl | rfl | rfl | rfl <;> exact ⟨_, _, rfl⟩
  · split at rs485
    · simp only [rs485Report, List.mem_cons, List.not_mem_nil, or_false] at rs485
      rcases rs485 with rfl | rfl | rfl | rfl | rfl | rfl | rfl <;> exact ⟨_, _, rfl⟩
    · exact absurd rs485 (by simp)

/-- **A configuration is reproduced exactly if it is complete.** -/
theorem reproduces_iff {config : UartConfig} (ok : config.Ok) :
    Reproduces config ↔ config.Complete := by
  have restated : Reproduces config ↔ ∃ config', parseOptionList config (reported config) = some config' ∧
      { config' with rs485UserConfigured := config.rs485UserConfigured } = config := by
    constructor
    · rintro ⟨opts, decoded, -, parsed⟩
      rw [decodeTerms_encodeConfiguration] at decoded
      obtain rfl : reported config = opts := by simpa using decoded
      exact parsed
    · intro parsed
      exact ⟨_, decodeTerms_encodeConfiguration config, reported_pair config, parsed⟩
  rw [restated, reported, parse_lineReport ok]
  by_cases unset : config.rs485Enabled = -1
  · rw [if_neg (by rw [unset]; decide)]
    exact iff_of_true ⟨config, rfl, rfl⟩ (.inl unset)
  · have set : -1 < config.rs485Enabled := by
      rcases ok.enabled with h | h | h
      · exact absurd h unset
      · rw [h]; decide
      · rw [h]; decide
    rw [if_pos set, parse_rs485Report ok]
    simp only [Option.some.injEq, exists_eq_left', UartConfig.Complete, unset, false_or]
    rw [UartConfig.ext_iff]
    simp only [true_and, and_true, ofBool_eq_iff ok.enabled, ofBool_eq_iff ok.rtsOnSend,
      ofBool_eq_iff ok.rtsAfterSend, ofBool_eq_iff ok.rxDuringTx, ofBool_eq_iff ok.terminateBus,
      unset, ne_eq, not_false_eq_true]

end Port

open Port

namespace Program

variable {β : Type}

/-! ## Runs -/

/-- Every configuration that a successful open or configure adopts is read back from the device,
as far as RS485 goes, or complete as it was given. -/
def KeepsReport (p : Program β) : Event β → Prop
  | .request os (.open name opts) => ∀ config q, name.length < 64 →
      configure p.currentConfig opts = some config →
      uartOpen os (cString name) config (p.enter os).shut = (true, q) →
      os.fails .rs485Report = none ∨ config.Complete
  | .request os (.configure opts) => ∀ config q, configure p.currentConfig opts = some config →
      (p.enter os).uartConfigure os config = .ok (true, q) →
      p.uart.fd.isSome = true ∧ os.fails .rs485Report = none ∨ config.Complete
  | _ => True

theorem readsBack_iff (os : Os β) (p : Program β) :
    p.readsBack os = true ↔ p.uart.fd.isSome = true ∧ os.fails .rs485Report = none := by
  unfold readsBack
  rw [Bool.and_eq_true, Option.isNone_iff_eq_none]

/-- **An adopted configuration** is well formed, and complete exactly if it was read back or was
so before. -/
theorem adopt_ok (os : Os β) {config : UartConfig} (ok : config.Ok) (p : Program β) :
    (p.adopt os config).currentConfig.Ok ∧
      ((p.adopt os config).currentConfig.Complete ↔
        (p.uart.fd.isSome = true ∧ os.fails .rs485Report = none) ∨ config.Complete) := by
  rw [currentConfig_adopt, ← readsBack_iff]
  cases p.readsBack os with
  | true =>
    rw [if_pos rfl]
    exact ⟨reportRs485_ok ok _, iff_of_true (reportRs485_complete config _) (.inl rfl)⟩
  | false =>
    rw [if_neg (by simp)]
    exact ⟨ok, by simp⟩

/-- **One event** keeps the configuration well formed, and keeps it complete exactly if what it
adopts is. -/
theorem handle_complete {p q : Program β} {e : Event β} (h : p.handle e = .ok q)
    (ok : p.currentConfig.Ok) : q.currentConfig.Ok ∧
      (p.currentConfig.Complete → (q.currentConfig.Complete ↔ KeepsReport p e)) := by
  have same : q.currentConfig = p.currentConfig → KeepsReport p e → q.currentConfig.Ok ∧
      (p.currentConfig.Complete → (q.currentConfig.Complete ↔ KeepsReport p e)) := by
    intro same keeps
    rw [same]
    exact ⟨ok, fun complete => iff_of_true complete keeps⟩
  cases e with
  | process os =>
    have steady := handle_steady h (by simp) (by simp)
    exact same steady.config trivial
  | request os command =>
    cases command with
    | «open» name opts =>
      have ways := handleOpen_cases os name opts (p.enter os)
      rw [show handleOpen os name opts (p.enter os) = q from Except.ok.inj h] at ways
      cases ways with
      | refused reason unfit =>
        refine same rfl fun config r short parsed => ?_
        exact absurd ((unfit short).symm.trans parsed) (by simp)
      | failed short parsed tried =>
        refine same ?_ fun config r _ parsed' tried' => ?_
        · exact (uartOpen_failed tried (shut_fd _)).2.trans (shut_steady (p.enter os)).config
        · obtain rfl := Option.some.inj (parsed.symm.trans parsed')
          exact absurd (congrArg Prod.fst (tried.symm.trans tried')) (by simp)
      | @opened config r short parsed tried =>
        have adopted := adopt_ok os (configure_ok ok parsed) r
        have isOpen := (uartOpen_opened tried).1
        refine ⟨adopted.1, fun _ => adopted.2.trans ?_⟩
        constructor
        · rintro complete config' r' - parsed' -
          obtain rfl := Option.some.inj (parsed.symm.trans parsed')
          exact complete.imp_left And.right
        · intro keeps
          exact (keeps _ _ short parsed tried).imp_left fun back => ⟨isOpen, back⟩
    | configure opts =>
      have ways := handleConfigure_cases os opts (p.enter os)
      rw [show handleConfigure os opts (p.enter os) = .ok q from h] at ways
      have ways : Configuring os opts (p.enter os) q := ways
      cases ways with
      | refused unparsed =>
        refine same rfl fun config r parsed => ?_
        exact absurd (unparsed.symm.trans parsed) (by simp)
      | failed parsed tried =>
        refine same (uartConfigure_eq_ok tried).2.1 fun config r parsed' tried' => ?_
        obtain rfl := Option.some.inj (parsed.symm.trans parsed')
        exact absurd (congrArg Prod.fst (Except.ok.inj (tried.symm.trans tried'))) (by simp)
      | @configured config r parsed tried =>
        have adopted := adopt_ok os (configure_ok ok parsed) r
        have fd : r.uart.fd = p.uart.fd := by
          rw [(uartConfigure_eq_ok tried).1]
          rfl
        rw [fd] at adopted
        refine ⟨adopted.1, fun _ => adopted.2.trans ?_⟩
        constructor
        · rintro complete config' r' parsed' -
          obtain rfl := Option.some.inj (parsed.symm.trans parsed')
          exact complete
        · intro keeps
          exact keeps _ _ parsed tried
    | _ => exact same (handle_steady h (by simp) (by simp)).config trivial

/-- **The report reproduces the configuration** throughout a run exactly if every configuration
adopted in it is read back, or complete. -/
theorem everyState_reproduces_iff (es : List (Event β)) :
    EveryState step (fun p : Program β => Reproduces p.currentConfig) {} es ↔
      EveryStep step KeepsReport {} es := by
  refine everyState_iff_everyStep (I := fun p => p.currentConfig.Ok) ?_ ?_ uartDefaultConfig_ok ?_
  · intro p e p' out ok took
    obtain ⟨q, hq, rfl, -⟩ := step_eq_some took
    exact (handle_complete hq ok).1
  · intro p e p' out ok reproduces took
    obtain ⟨q, hq, rfl, -⟩ := step_eq_some took
    obtain ⟨ok', exact_step⟩ := handle_complete hq ok
    exact (reproduces_iff ok').trans (exact_step ((reproduces_iff ok).mp reproduces))
  · exact (reproduces_iff uartDefaultConfig_ok).mpr (.inl rfl)

/-- A closed port is configured with `rs485_enabled: true`: four flags that are not set are
reported as `true`. -/
theorem not_everyState_reproduces_closed : ¬ EveryState step
    (fun p : Program UInt8 => Reproduces p.currentConfig) {}
    [.request {} (.configure [.rs485Enabled true])] := by
  intro reproduces
  have last := reproduces.of_exec (rfl : exec step {} _ = some (_, _))
  have ok : UartConfig.Ok { uartDefaultConfig with rs485UserConfigured := true, rs485Enabled := 1 } :=
    { uartDefaultConfig_ok with enabled := .inr (.inr rfl) }
  exact absurd ((reproduces_iff ok).mp last) (by decide)

end Program

end CircuitsUart
