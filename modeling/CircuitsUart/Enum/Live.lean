import CircuitsUart.Enum.Sysfs

/-!
# Which strings of the enumeration are live

What a climb leaves in a field is what the last file it opened for it gave. The strings are live,
and the list is freed without a double free, exactly if for no field of a port this is a file
that gave nothing.

A field is followed through a climb on its own (`Left`), although a directory has all five files
and the climb ends at the first one that gives text in any of them. `climbed_pointer` takes the
climb apart into its fields, by induction on the visits.

What is **wanted** names no climb. `Deepest` is a directory of the path, by its place in it, and
`LiveString` says what a field should hold in terms of the files there; `Clean` is the condition,
and it too speaks of directories and files. The climb is what connects them.
-/

set_option autoImplicit false

namespace CircuitsUart

open Lib Port

namespace Enum

namespace Sysfs

variable (fs : Sysfs)

/-! ## What is asked of the enumeration -/

/-- The five attributes. -/
def attributes : List (List UInt8) :=
  [ascii "manufacturer", ascii "serial", ascii "idVendor", ascii "idProduct", ascii "product"]

/-- An attribute of the directory can be read. -/
def Readable (dir : List UInt8) : Prop :=
  ∃ name ∈ attributes, ∃ text, fs.read dir name = some text ∧ text ≠ []

/-- The deepest directory, of the path's own and those above, that has an attribute to read. -/
structure Deepest (path dir : List UInt8) : Prop where
  above : Above slash dir path
  readable : fs.Readable dir
  deepest : ∀ other, Above slash other path → fs.Readable other → other.length ≤ dir.length

/-- The directory is no higher than the deepest one that is readable. -/
def Passed (path dir : List UInt8) : Prop :=
  Above slash dir path ∧ ∀ deepest, fs.Deepest path deepest → deepest.length ≤ dir.length

/-- The pointer is null, or the first line of the attribute in the deepest readable directory. -/
def LiveString (path : List UInt8) (field : Field) (pointer : Pointer) : Prop :=
  pointer ≠ .null → ∃ dir line, fs.Deepest path dir ∧
    (fs.file (dir ++ slash :: field.filename)).firstLine = some line ∧ pointer = .live line

/-- What the list says of the port with this name, found at this path. -/
structure Describes (port : List UInt8 × List UInt8) (info : SerialInfo) : Prop where
  name : info.name = .live port.1
  strings : ∀ field, fs.LiveString port.2 field (info.pointer field)

/-- The ports there are, with the path each climb begins at. -/
def ports : List (List UInt8 × List UInt8) :=
  ((fs.ttys.getD []).filter isTtyFilename).filterMap fun name =>
    (fs.follow name).map (Prod.mk name)

/-- The enumeration ends, and this is the list. -/
def Finds (infos : List SerialInfo) : Prop :=
  ∃ enough, ∀ fuel, enough ≤ fuel → fs.findSerialports fuel = some infos

/-- The first line is read whole: it fits into the buffer, and no zero ends the string before. -/
def WholeLine (file : File) : Prop :=
  ∀ line, file.firstLine = some line → line.length ≤ 4095 ∧ (0 : UInt8) ∉ line

/-- The directories the climb stops at and passes leave no released pointer for the field: the
last one has the attribute, or none of them has a file for it that gives nothing. -/
structure Clean (path : List UInt8) (field : Field) : Prop where
  whole : ∀ dir text, fs.Deepest path dir → fs.read dir field.filename = some text → text ≠ [] →
    WholeLine (fs.file (dir ++ slash :: field.filename))
  settled : (∃ dir text, fs.Deepest path dir ∧ fs.read dir field.filename = some text ∧
      text ≠ []) ∨
    ∀ dir, fs.Passed path dir → fs.read dir field.filename ≠ some []

end Sysfs

/-- The string a pointer points to. -/
def Pointer.string : Pointer → List (List UInt8)
  | .live string => [string]
  | _ => []

/-- The strings of a `serial_info`, in the order they are freed. -/
def SerialInfo.strings (info : SerialInfo) : List (List UInt8) :=
  info.pointers.flatMap Pointer.string

namespace Sysfs

variable {fs : Sysfs}

/-! ## One directory -/

/-- What a pointer is after the attribute's file has been read. -/
def afterRead : Option (List UInt8) → Pointer → Pointer
  | none, pointer => pointer
  | some [], _ => .released
  | some text, _ => .live ((Program.cString text).takeWhile (· ≠ newline))

theorem tryReadFirstLine_snd (directory filename : List UInt8) (result : Pointer) :
    (fs.tryReadFirstLine directory filename result).2 =
      afterRead (fs.read directory filename) result := by
  unfold tryReadFirstLine tryReadAll
  match fs.read directory filename with
  | none => rfl
  | some [] => rfl
  | some (b :: bytes) => rfl

/-- The attribute gives text. -/
def given (fs : Sysfs) (directory filename : List UInt8) : Bool :=
  ((fs.read directory filename).getD []) ≠ []

theorem given_iff {directory filename : List UInt8} :
    fs.given directory filename = true ↔
      ∃ text, fs.read directory filename = some text ∧ text ≠ [] := by
  unfold given
  cases fs.read directory filename <;> simp

theorem tryReadFirstLine_fst (directory filename : List UInt8) (result : Pointer) :
    (fs.tryReadFirstLine directory filename result).1 = fs.given directory filename := by
  unfold tryReadFirstLine tryReadAll given
  match fs.read directory filename with
  | none => rfl
  | some [] => rfl
  | some (b :: bytes) => simp

theorem tryHexRead_fst (directory filename : List UInt8) (result : Int) :
    (fs.tryHexRead directory filename result).1 = fs.given directory filename := by
  rw [← tryReadFirstLine_fst directory filename .null]
  unfold tryHexRead tryReadFirstLine tryReadAll
  match fs.read directory filename with
  | none => rfl
  | some [] => rfl
  | some (b :: bytes) => rfl

theorem getSerialportInfo_pointer (path : List UInt8) (info : SerialInfo) (field : Field) :
    (fs.getSerialportInfo path info).2.pointer field =
      afterRead (fs.read path field.filename) (info.pointer field) := by
  cases field with
  | manufacturer => exact tryReadFirstLine_snd path _ _
  | serialNumber => exact tryReadFirstLine_snd path _ _
  | description => exact tryReadFirstLine_snd path _ _

theorem getSerialportInfo_name (path : List UInt8) (info : SerialInfo) :
    (fs.getSerialportInfo path info).2.name = info.name := rfl

/-- A directory is where the climb stops if one of the five attributes is to be read there. -/
theorem getSerialportInfo_fst (path : List UInt8) (info : SerialInfo) :
    (fs.getSerialportInfo path info).1 = true ↔ fs.Readable path := by
  have all : (fs.getSerialportInfo path info).1 = attributes.any (fs.given path) := by
    unfold getSerialportInfo attributes
    simp only [tryReadFirstLine_fst, tryHexRead_fst, List.any_cons, List.any_nil, Bool.or_false,
      Bool.or_assoc]
  rw [all, List.any_eq_true]
  unfold Readable
  constructor
  · intro ⟨name, listed, gives⟩
    exact ⟨name, listed, given_iff.mp gives⟩
  · intro ⟨name, listed, gives⟩
    exact ⟨name, listed, given_iff.mpr gives⟩

theorem readable_of_field {dir text : List UInt8} {field : Field}
    (gives : fs.read dir field.filename = some text) (ne : text ≠ []) : fs.Readable dir := by
  refine ⟨field.filename, ?_, text, gives, ne⟩
  unfold attributes
  cases field <;> simp [Field.filename]

/-! ## A climb -/

/-- `Left fs path field q q'`: a climb from `path` turns the field's pointer from `q` to `q'`. -/
inductive Left (fs : Sysfs) (path : List UInt8) (field : Field) (q : Pointer) : Pointer → Prop
  | text {dir text : List UInt8} (deepest : fs.Deepest path dir)
    (gives : fs.read dir field.filename = some text) (ne : text ≠ []) :
    Left fs path field q (.live ((Program.cString text).takeWhile (· ≠ newline)))
  | nothing {dir : List UInt8} (passed : fs.Passed path dir)
    (gives : fs.read dir field.filename = some [])
    (unsettled : ∀ dir text, fs.Deepest path dir → fs.read dir field.filename = some text →
      text = []) :
    Left fs path field q .released
  | untouched (closed : ∀ dir, fs.Passed path dir → fs.read dir field.filename = none) :
    Left fs path field q q

theorem Deepest.passed {path dir : List UInt8} (deepest : fs.Deepest path dir) :
    fs.Passed path dir :=
  ⟨deepest.above, fun _ other => deepest.deepest _ other.above other.readable⟩

theorem deepest_self {path : List UInt8} (ne : path ≠ []) (readable : fs.Readable path) :
    fs.Deepest path path where
  above := .refl ne
  readable := readable
  deepest _ above _ := above.length_le

/-- Two directories above a path that are as deep are the same. -/
theorem Deepest.unique {path dir other : List UInt8} (d : fs.Deepest path dir)
    (o : fs.Deepest path other) : dir = other := by
  have shorter : dir.length ≤ other.length := o.deepest _ d.above d.readable
  have longer : other.length ≤ dir.length := d.deepest _ o.above o.readable
  apply List.IsPrefix.eq_of_length _ (Nat.le_antisymm shorter longer)
  exact List.prefix_of_prefix_length_le d.above.isPrefix o.above.isPrefix shorter

section

variable {path parent : List UInt8} (ne : path ≠ []) (cut : beforeLast slash path = some parent)
  (unreadable : ¬ fs.Readable path)

include ne cut unreadable

theorem deepest_up {dir : List UInt8} : fs.Deepest path dir ↔ fs.Deepest parent dir := by
  constructor
  · intro d
    have above : Above slash dir parent := by
      apply ((above_iff ne cut).mp d.above).resolve_left
      intro same
      exact unreadable (same ▸ d.readable)
    exact ⟨above, d.readable, fun other h => d.deepest other ((above_iff ne cut).mpr (.inr h))⟩
  · intro d
    refine ⟨(above_iff ne cut).mpr (.inr d.above), d.readable, fun other h readable => ?_⟩
    apply d.deepest other _ readable
    apply ((above_iff ne cut).mp h).resolve_left
    intro same
    exact unreadable (same ▸ readable)

theorem passed_up {dir : List UInt8} :
    fs.Passed path dir ↔ dir = path ∨ fs.Passed parent dir := by
  unfold Passed
  constructor
  · intro ⟨above, deep⟩
    apply ((above_iff ne cut).mp above).imp_right
    intro above
    exact ⟨above, fun other d => deep other ((deepest_up ne cut unreadable).mpr d)⟩
  · intro passed
    obtain rfl | ⟨above, deep⟩ := passed
    · exact ⟨.refl ne, fun other d => d.above.length_le⟩
    · refine ⟨(above_iff ne cut).mpr (.inr above), fun other d => ?_⟩
      exact deep other ((deepest_up ne cut unreadable).mp d)

/-- What the climb from the parent leaves is what it leaves from here. -/
theorem Left.up {field : Field} {before left : Pointer}
    (above : Left fs parent field (afterRead (fs.read path field.filename) before) left) :
    Left fs path field before left := by
  cases above with
  | text d gives some_text => exact .text ((deepest_up ne cut unreadable).mpr d) gives some_text
  | nothing passed gives unsettled =>
    refine .nothing ((passed_up ne cut unreadable).mpr (.inr passed)) gives fun dir text d => ?_
    exact unsettled dir text ((deepest_up ne cut unreadable).mp d)
  | untouched closed =>
    match gives : fs.read path field.filename with
    | none =>
      refine .untouched fun dir passed => ?_
      obtain rfl | passed := (passed_up ne cut unreadable).mp passed
      · exact gives
      · exact closed dir passed
    | some [] =>
      refine .nothing ((passed_up ne cut unreadable).mpr (.inl rfl)) gives fun dir text d h => ?_
      have d := (deepest_up ne cut unreadable).mp d
      rw [closed dir d.passed] at h
      exact absurd h (by simp)
    | some (b :: bytes) => exact absurd (readable_of_field gives (by simp)) unreadable

end

/-- What is left where the climb stops. -/
theorem Left.here {path : List UInt8} (ne : path ≠ []) (readable : fs.Readable path)
    (field : Field) (before : Pointer) :
    Left fs path field before (afterRead (fs.read path field.filename) before) := by
  have deepest := deepest_self ne readable
  match gives : fs.read path field.filename with
  | none =>
    refine .untouched fun dir passed => ?_
    have long := passed.2 path deepest
    obtain ⟨-, rfl | ⟨rest, rfl⟩⟩ := passed.1
    · exact gives
    · rw [List.length_append, List.length_cons] at long
      omega
  | some [] =>
    refine .nothing deepest.passed gives fun dir text d h => ?_
    rw [← deepest.unique d, gives] at h
    exact (Option.some.inj h).symm
  | some (b :: bytes) => exact .text deepest gives (by simp)

/-- By induction on the climb, directory by directory. -/
theorem climbed_pointer {path : List UInt8} {info info' : SerialInfo}
    (climbed : Climbed slash fs.getSerialportInfo path info info') (field : Field) :
    Left fs path field (info.pointer field) (info'.pointer field) := by
  induction climbed with
  | top s => exact .untouched fun dir passed => absurd passed.1 not_above_nil
  | @found path s s' ne here =>
    have readable := (getSerialportInfo_fst path s).mp (congrArg Prod.fst here)
    have left := Left.here ne readable field (s.pointer field)
    rwa [← getSerialportInfo_pointer, here] at left
  | @up path parent s s' t ne here cut above ih =>
    have unreadable : ¬ fs.Readable path := by
      rw [← getSerialportInfo_fst path s, here]
      simp
    apply Left.up ne cut unreadable
    rwa [← getSerialportInfo_pointer, here]

/-- The string is the file's first line exactly if that line is read whole. -/
theorem line_eq_iff {dir filename text : List UInt8} (gives : fs.read dir filename = some text)
    (ne : text ≠ []) :
    (fs.file (dir ++ slash :: filename)).firstLine =
        some ((Program.cString text).takeWhile (· ≠ newline)) ↔
      WholeLine (fs.file (dir ++ slash :: filename)) := by
  unfold read at gives
  generalize fs.file (dir ++ slash :: filename) = file at gives ⊢
  cases file with
  | absent => exact absurd gives (by simp [File.fread])
  | unreadable => exact absurd gives (by simp [File.fread])
  | failing => exact absurd (Option.some.inj gives).symm ne
  | holding whole =>
    obtain rfl := Option.some.inj gives
    -- the code cuts at 4095 bytes, at a zero and at the line's end; the order does not matter
    have swap : (Program.cString (whole.take 4095)).takeWhile (· ≠ newline) =
        ((whole.takeWhile (· ≠ newline)).take 4095).takeWhile (· ≠ 0) := by
      rw [List.take_takeWhile]
      unfold Program.cString
      simp only [List.takeWhile_takeWhile, and_comm]
    rw [swap]
    unfold WholeLine File.firstLine
    constructor
    · intro same line h
      obtain rfl := Option.some.inj h
      have same := Option.some.inj same
      constructor
      · have short := (List.takeWhile_prefix (· ≠ 0)
          (l := (whole.takeWhile (· ≠ newline)).take 4095)).length_le
        rw [← same, List.length_take] at short
        omega
      · intro zero
        rw [same] at zero
        simpa using List.mem_takeWhile_imp zero
    · intro h
      obtain ⟨short, no_zero⟩ := h _ rfl
      rw [List.take_of_length_le short, List.takeWhile_eq_self_iff.mpr]
      intro c inside
      have := ne_of_mem_of_not_mem inside no_zero
      simpa using this

theorem Left.live_iff {path : List UInt8} {field : Field} {pointer : Pointer}
    (left : Left fs path field .null pointer) :
    fs.LiveString path field pointer ↔ fs.Clean path field := by
  generalize start : Pointer.null = q at left
  cases left with
  | @text dir text deepest gives ne =>
    constructor
    · intro live
      obtain ⟨other, line, d, first, same⟩ := live (by simp)
      obtain rfl := deepest.unique d
      obtain rfl := Pointer.live.inj same
      refine ⟨fun other text' d h _ => ?_, .inl ⟨dir, text, deepest, gives, ne⟩⟩
      obtain rfl := deepest.unique d
      exact (line_eq_iff gives ne).mp first
    · intro clean _
      have whole := clean.whole dir text deepest gives ne
      exact ⟨dir, _, deepest, (line_eq_iff gives ne).mpr whole, rfl⟩
  | nothing passed gives unsettled =>
    constructor
    · intro live
      obtain ⟨dir, line, -, -, same⟩ := live (by simp)
      exact absurd same (by simp)
    · intro clean
      obtain ⟨dir, text, d, h, ne⟩ | none_silent := clean.settled
      · exact absurd (unsettled dir text d h) ne
      · exact absurd gives (none_silent _ passed)
  | untouched closed =>
    subst start
    constructor
    · intro _
      refine ⟨fun dir text d h _ => ?_, .inr fun dir passed => ?_⟩
      · rw [closed dir d.passed] at h
        exact absurd h (by simp)
      · rw [closed dir passed]
        simp
    · intro _ dangling
      exact absurd rfl dangling

/-! ## The list -/

theorem climbed_name {path : List UInt8} {info info' : SerialInfo}
    (climbed : Climbed slash fs.getSerialportInfo path info info') : info'.name = info.name := by
  induction climbed with
  | top s => rfl
  | @found path s s' ne here =>
    rw [← @getSerialportInfo_name fs path s, here]
  | @up path parent s s' t ne here cut above ih =>
    rw [ih, ← @getSerialportInfo_name fs path s, here]

/-- What the climb for a port adds to the list. -/
def Added (fs : Sysfs) (port : List UInt8 × List UInt8) (info : SerialInfo) : Prop :=
  Climbed slash fs.getSerialportInfo port.2 { name := .live port.1 } info

theorem Added.describes_iff {port : List UInt8 × List UInt8} {info : SerialInfo}
    (added : fs.Added port info) :
    fs.Describes port info ↔ ∀ field, fs.Clean port.2 field := by
  have strings (field : Field) :
      fs.LiveString port.2 field (info.pointer field) ↔ fs.Clean port.2 field := by
    have left := climbed_pointer added field
    apply Left.live_iff
    cases field <;> exact left
  constructor
  · intro describes field
    exact (strings field).mp (describes.strings field)
  · intro clean
    exact ⟨climbed_name added, fun field => (strings field).mpr (clean field)⟩

theorem follow_rooted {name path : List UInt8} (follows : fs.follow name = some path) :
    ∃ rest, path = slash :: rest := by
  unfold follow at follows
  split at follows
  · split at follows
    · exact absurd follows (by simp)
    · exact absurd follows (by simp)
    · obtain rfl := Option.some.inj follows
      exact ⟨_, rfl⟩
  · exact absurd follows (by simp)

/-- The loop over the names ends, whatever the files are. -/
theorem addSerialports (names : List (List UInt8)) (infos : List SerialInfo) :
    ∃ enough more, List.Forall₂ fs.Added
        (names.filterMap fun name => (fs.follow name).map (Prod.mk name)).reverse more ∧
      ∀ fuel, enough ≤ fuel →
        names.foldlM (fs.addSerialport fuel) infos = some (more ++ infos) := by
  induction names generalizing infos with
  | nil => exact ⟨0, [], .nil, fun _ _ => rfl⟩
  | cons name names ih =>
    cases follows : fs.follow name with
    | none =>
      obtain ⟨enough, more, added, ends⟩ := ih infos
      refine ⟨enough, more, by simpa [follows] using added, fun fuel h => ?_⟩
      rw [List.foldlM_cons]
      simpa [addSerialport, follows] using ends fuel h
    | some path =>
      obtain ⟨rest, rfl⟩ := follow_rooted follows
      obtain ⟨info, climbed⟩ := @climbed_of_rooted _ _ slash _ fs.getSerialportInfo rest
        { name := .live name }
      obtain ⟨enough, more, added, ends⟩ := ih (info :: infos)
      refine ⟨max enough (rest.length + 2), more ++ [info], ?_, fun fuel h => ?_⟩
      · simp only [List.filterMap_cons, follows, Option.map_some, List.reverse_cons]
        exact List.rel_append added (.cons climbed .nil)
      · have climb := @Climbed.climb_eq _ _ _ _ _ _ _ _ climbed fuel (by simp; omega)
        rw [List.foldlM_cons]
        simpa [addSerialport, follows, climb] using ends fuel (by omega)

theorem exists_finds (fs : Sysfs) :
    ∃ infos, fs.Finds infos ∧ List.Forall₂ fs.Added fs.ports.reverse infos := by
  unfold Finds findSerialports ports
  cases fs.ttys with
  | none => exact ⟨[], ⟨0, fun _ _ => rfl⟩, .nil⟩
  | some names =>
    obtain ⟨enough, more, added, ends⟩ := @addSerialports fs (names.filter isTtyFilename) []
    exact ⟨more, ⟨enough, by simpa using ends⟩, added⟩

theorem Finds.unique {infos others : List SerialInfo} (finds : fs.Finds infos)
    (others_too : fs.Finds others) : infos = others := by
  obtain ⟨n, hn⟩ := finds
  obtain ⟨m, hm⟩ := others_too
  have same := hn (max n m) (Nat.le_max_left n m)
  rw [hm (max n m) (Nat.le_max_right n m)] at same
  exact (Option.some.inj same).symm

/-! ## Releasing the list -/

theorem free_of_ne_released {pointer : Pointer} (h : pointer ≠ .released) :
    pointer.free = some pointer.string := by
  cases pointer with
  | null => rfl
  | live string => rfl
  | released => exact absurd rfl h

theorem mapM_flatten {α β : Type} {f : α → Option (List β)} {g : α → List β} {xs : List α}
    (h : ∀ x ∈ xs, f x = some (g x)) : (xs.mapM f).map List.flatten = some (xs.flatMap g) := by
  have all : xs.mapM f = some (xs.map g) := by
    induction xs with
    | nil => rfl
    | cons x xs ih =>
      rw [List.mapM_cons, h x (List.mem_cons_self ..),
        ih fun y inside => h y (List.mem_cons_of_mem _ inside)]
      rfl
  rw [all]
  rfl

theorem Describes.ne_released {port : List UInt8 × List UInt8} {info : SerialInfo}
    (describes : fs.Describes port info) (field : Field) : info.pointer field ≠ .released := by
  intro released
  obtain ⟨_, _, -, -, same⟩ := describes.strings field (by simp [released])
  exact absurd same (by simp [released])

theorem Describes.freed {port : List UInt8 × List UInt8} {info : SerialInfo}
    (describes : fs.Describes port info) : serialInfoFree info = some info.strings := by
  apply mapM_flatten
  intro pointer inside
  apply free_of_ne_released
  unfold SerialInfo.pointers at inside
  simp only [List.mem_cons, List.not_mem_nil, or_false] at inside
  obtain rfl | rfl | rfl | rfl := inside
  · simp [describes.name]
  · exact describes.ne_released .description
  · exact describes.ne_released .serialNumber
  · exact describes.ne_released .manufacturer

theorem describes_freed {ports : List (List UInt8 × List UInt8)} {infos : List SerialInfo}
    (described : List.Forall₂ fs.Describes ports infos) :
    serialInfoFreeList infos = some (infos.flatMap SerialInfo.strings) := by
  apply mapM_flatten
  induction described with
  | nil => exact fun _ inside => absurd inside (by simp)
  | cons describes _ ih =>
    intro info inside
    obtain rfl | inside := List.mem_cons.mp inside
    · exact describes.freed
    · exact ih info inside

theorem described_iff {ports : List (List UInt8 × List UInt8)} {infos : List SerialInfo}
    (added : List.Forall₂ fs.Added ports infos) :
    List.Forall₂ fs.Describes ports infos ↔ ∀ port ∈ ports, ∀ field, fs.Clean port.2 field := by
  induction added with
  | nil => simp
  | cons added _ ih =>
    rw [List.forall₂_cons, added.describes_iff, ih, List.forall_mem_cons]

/-- The climbs end, and every string in the list is the first line of its attribute in the deepest
readable directory and is released once, exactly if every field of every port is clean. -/
theorem findSerialports_live_iff (fs : Sysfs) :
    (∃ infos, fs.Finds infos ∧ List.Forall₂ fs.Describes fs.ports.reverse infos ∧
      serialInfoFreeList infos = some (infos.flatMap SerialInfo.strings)) ↔
    ∀ port ∈ fs.ports, ∀ field, fs.Clean port.2 field := by
  -- there is one list, whatever the fuel, and each entry is what a climb added
  obtain ⟨infos, finds, added⟩ := exists_finds fs
  have described := described_iff added
  simp only [List.mem_reverse] at described
  constructor
  · intro ⟨others, others_too, describes, _⟩
    obtain rfl := finds.unique others_too
    exact described.mp describes
  · intro clean
    have describes := described.mpr clean
    exact ⟨infos, finds, describes, describes_freed describes⟩

/-- An adapter whose `manufacturer` is empty. -/
def namelessAdapter : Sysfs where
  ttys := some [ascii "ttyUSB0"]
  file := fun path =>
    if path = ascii "/sys/class/tty/ttyUSB0/device/uevent" then .holding (ascii "DRIVER=ftdi_sio\n")
    else if path = ascii "/sys/class/tty/usb/manufacturer" then .holding []
    else if path = ascii "/sys/class/tty/usb/idVendor" then .holding (ascii "0403\n")
    else .absent
  readlink := fun _ => some (ascii "usb")
  serialType := fun _ => none
  stale := fun _ => []

/-- The list has a released pointer, and freeing the list frees it again. -/
theorem findSerialports_dangling :
    (∃ info, namelessAdapter.Finds [info] ∧ info.vid = 0x403 ∧ info.manufacturer = .released ∧
      serialInfoFreeList [info] = none) ∧
    ¬ ∃ infos, namelessAdapter.Finds infos ∧
      List.Forall₂ namelessAdapter.Describes namelessAdapter.ports.reverse infos ∧
      serialInfoFreeList infos = some (infos.flatMap SerialInfo.strings) := by
  have found (n : Nat) : namelessAdapter.findSerialports (n + 1) =
      some [{ name := .live (ascii "ttyUSB0"), manufacturer := .released, vid := 0x403 }] := rfl
  have finds : namelessAdapter.Finds
      [{ name := .live (ascii "ttyUSB0"), manufacturer := .released, vid := 0x403 }] := by
    refine ⟨1, fun fuel enough => ?_⟩
    obtain ⟨n, rfl⟩ := Nat.exists_eq_add_of_le' enough
    exact found n
  refine ⟨⟨_, finds, rfl, rfl, rfl⟩, fun ⟨infos, others, _, freed⟩ => ?_⟩
  obtain rfl := finds.unique others
  exact absurd freed (by
    simp [serialInfoFreeList, serialInfoFree, SerialInfo.pointers, Pointer.free])

end Sysfs

end Enum

end CircuitsUart
