import CircuitsUart.Enum.Live
import CircuitsUart.Lib.Etf

/-!
# The reply to an enumeration

`enumerate_ports` writes a map with an entry for each port into a buffer on its stack, and looks
at the buffer's size nowhere. The reply arrives as the map exactly if the sizes of what is written
add up to no more than the buffer has.

## Sizes instead of bytes

The reply is a stream of tags, and what counts is how far each call moves `resp_index`. How an atom
or an integer is written is up to the `ei` library that the program is linked with, so the two sizes
that differ are parameters, `EiSizes`, and no byte is written here. What the VM makes of the tags
does not depend on it (`Etf.ofTags`).

## Which ports

`Discovered` is what the loop needs of the list: strings that are live, and each name once. It is
what `find_serialports` returns wherever it leaves no released pointer.
-/

set_option autoImplicit false

namespace CircuitsUart

open Lib

namespace Enum

/-! ## What is written -/

/-- The sizes that `ei` leaves open. -/
structure EiSizes where
  atomHeader : Nat
  atomHeader_eq : atomHeader = 2 ∨ atomHeader = 3
  ulong : Nat → Nat
  ulong_le : ∀ n, ulong n ≤ 11

/-- How far the call for a tag moves `resp_index`. There are no others. -/
def EiSizes.size (sizes : EiSizes) : Etf.Tag → Nat
  | .map _ => 5
  | .binary bytes => 5 + bytes.length
  | .atom name => sizes.atomHeader + name.length
  | .int value => sizes.ulong value.toNat
  | .float _ | .string _ | .nil | .tuple _ | .list _ | .other => 0

/-- The values of `resp_index`, from this one on. -/
def EiSizes.indices (sizes : EiSizes) : Nat → List Etf.Tag → List Nat
  | index, [] => [index]
  | index, tag :: tags => index :: sizes.indices (index + sizes.size tag) tags

/-- A `serial_info` whose strings are live. -/
structure PortInfo where
  name : List UInt8
  description : Option (List UInt8)
  manufacturer : Option (List UInt8)
  serialNumber : Option (List UInt8)
  vid : Int
  pid : Int

/-- A string, as a pointer. -/
def Pointer.ofOption : Option (List UInt8) → Pointer
  | none => .null
  | some string => .live string

def PortInfo.info (port : PortInfo) : SerialInfo where
  name := .live port.name
  description := .ofOption port.description
  manufacturer := .ofOption port.manufacturer
  serialNumber := .ofOption port.serialNumber
  vid := port.vid
  pid := port.pid

/-- The list of discovered ports: a directory has each name once. -/
structure Discovered where
  ports : List PortInfo
  distinct : (ports.map PortInfo.name).Nodup

/-- `if (..) { ei_encode_atom(..); .. }`. -/
def encodeField (key : String) : Option Etf.Tag → List Etf.Tag
  | none => []
  | some value => [.atom key, value]

/-- An id that has been found. -/
def positive (id : Int) : Option Int := if id > 0 then some id else none

/-- The fields of a port, in the order they are written. -/
def PortInfo.present (port : PortInfo) : List (String × Option Etf.Tag) := [
  ("description", port.description.map .binary),
  ("manufacturer", port.manufacturer.map .binary),
  ("serial_number", port.serialNumber.map .binary),
  ("vendor_id", (positive port.vid).map .int),
  ("product_id", (positive port.pid).map .int)]

/-- `info_count`. -/
def PortInfo.infoCount (port : PortInfo) : Nat :=
  (if port.description.isSome then 1 else 0) + (if port.manufacturer.isSome then 1 else 0) +
    (if port.serialNumber.isSome then 1 else 0) + (if port.vid > 0 then 1 else 0) +
    (if port.pid > 0 then 1 else 0)

/-- One turn of the loop over the ports. -/
def encodePort (port : PortInfo) : List Etf.Tag :=
  .binary port.name :: .map (2 * port.infoCount) ::
    port.present.flatMap fun field => encodeField field.1 field.2

/-- What `enumerate_ports` writes behind `response_id` and the version. -/
def enumeratePorts (ports : List PortInfo) : List Etf.Tag :=
  .map (2 * ports.length) :: ports.flatMap encodePort

/-- All the values of `resp_index`: behind the space for the size, behind `response_id`, behind the
version and behind each tag. -/
def EiSizes.respIndices (sizes : EiSizes) (ports : List PortInfo) : List Nat :=
  2 :: 3 :: sizes.indices 4 (enumeratePorts ports)

/-! ## What is read -/

/-- `:erlang.binary_to_term(message)`, of the tags in it. -/
def receive (tags : List Etf.Tag) : Option Etf.Term :=
  match Etf.ofTags tags with
  | some [t] => some t
  | _ => none

/-- A key and its value, if the field is there. -/
def fieldEntry {α : Type} (key : String) (term : α → Etf.Term) : Option α → List Etf.Term
  | none => []
  | some a => [.atom key, term a]

/-- The keys and values of the fields a port has. -/
def PortInfo.fields (port : PortInfo) : List Etf.Term :=
  fieldEntry "description" .binary port.description ++
    (fieldEntry "manufacturer" .binary port.manufacturer ++
      (fieldEntry "serial_number" .binary port.serialNumber ++
        (fieldEntry "vendor_id" .int (positive port.vid) ++
          fieldEntry "product_id" .int (positive port.pid))))

/-- The entries of the reply: for each port its name and its fields. -/
def entries (ports : List PortInfo) : List Etf.Term :=
  ports.flatMap fun port => [.binary port.name, .map port.fields]

/-- The reply stays inside `resp`, its length can be written in two bytes, and it is read as a map
with an entry for each port. -/
structure Arrives (sizes : EiSizes) (ports : List PortInfo) : Prop where
  inside : ∀ index ∈ sizes.respIndices ports, index ≤ 4096
  payload : ∀ index ∈ (sizes.respIndices ports).getLast?, index - 2 < 2 ^ 16
  entries : receive (enumeratePorts ports) = some (.map (entries ports))

/-! ## How long it is -/

/-- A string with a key of so many bytes. -/
def EiSizes.stringSize (sizes : EiSizes) (key : Nat) : Option (List UInt8) → Nat
  | none => 0
  | some string => sizes.atomHeader + key + 5 + string.length

/-- An id with a key of so many bytes. -/
def EiSizes.idSize (sizes : EiSizes) (key : Nat) (id : Int) : Nat :=
  if id > 0 then sizes.atomHeader + key + sizes.ulong id.toNat else 0

def EiSizes.portSize (sizes : EiSizes) (port : PortInfo) : Nat :=
  10 + port.name.length + sizes.stringSize 11 port.description +
    sizes.stringSize 12 port.manufacturer + sizes.stringSize 13 port.serialNumber +
    sizes.idSize 9 port.vid + sizes.idSize 10 port.pid

/-- The whole message, with the space for the payload's size. -/
def EiSizes.replySize (sizes : EiSizes) (ports : List PortInfo) : Nat :=
  9 + (ports.map sizes.portSize).sum

section

variable (sizes : EiSizes)

/-- What a number of calls write. -/
def EiSizes.total (tags : List Etf.Tag) : Nat := (tags.map sizes.size).sum

theorem total_append (tags tags' : List Etf.Tag) :
    sizes.total (tags ++ tags') = sizes.total tags + sizes.total tags' := by
  unfold EiSizes.total
  rw [List.map_append, List.sum_append]

theorem indices_le_iff (index limit : Nat) (tags : List Etf.Tag) :
    (∀ i ∈ sizes.indices index tags, i ≤ limit) ↔ index + sizes.total tags ≤ limit := by
  induction tags generalizing index with
  | nil => simp [EiSizes.indices, EiSizes.total]
  | cons tag tags ih =>
    have split : sizes.total (tag :: tags) = sizes.size tag + sizes.total tags := rfl
    unfold EiSizes.indices
    rw [List.forall_mem_cons, ih, split]
    omega

theorem indices_getLast (index : Nat) (tags : List Etf.Tag) :
    (sizes.indices index tags).getLast? = some (index + sizes.total tags) := by
  induction tags generalizing index with
  | nil => rfl
  | cons tag tags ih =>
    have split : sizes.total (tag :: tags) = sizes.size tag + sizes.total tags := rfl
    unfold EiSizes.indices
    rw [List.getLast?_cons, ih, split, Option.getD_some, Nat.add_assoc]

theorem total_string (key : String) (string : Option (List UInt8)) :
    sizes.total (encodeField key (string.map .binary)) = sizes.stringSize key.length string := by
  cases string with
  | none => rfl
  | some string =>
    show sizes.atomHeader + key.length + ((5 + string.length) + 0) =
      sizes.atomHeader + key.length + 5 + string.length
    omega

theorem total_id (key : String) (id : Int) :
    sizes.total (encodeField key ((positive id).map .int)) = sizes.idSize key.length id := by
  unfold positive EiSizes.idSize
  by_cases found : id > 0
  · rw [if_pos found, if_pos found]
    rfl
  · rw [if_neg found, if_neg found]
    rfl

theorem total_port (port : PortInfo) : sizes.total (encodePort port) = sizes.portSize port := by
  have head : sizes.total (encodePort port) = (5 + port.name.length) + (5 +
      sizes.total (port.present.flatMap fun field => encodeField field.1 field.2)) := rfl
  rw [head]
  unfold PortInfo.present
  simp only [List.flatMap_cons, List.flatMap_nil, total_append, total_string, total_id]
  show _ + (5 + (sizes.stringSize 11 _ + (sizes.stringSize 12 _ + (sizes.stringSize 13 _ +
    (sizes.idSize 9 _ + (sizes.idSize 10 _ + 0)))))) = _
  unfold EiSizes.portSize
  omega

/-- **The last index is the size of the reply.** -/
theorem total_reply (ports : List PortInfo) :
    4 + sizes.total (enumeratePorts ports) = sizes.replySize ports := by
  have loop : sizes.total (ports.flatMap encodePort) = (ports.map sizes.portSize).sum := by
    induction ports with
    | nil => rfl
    | cons port ports ih =>
      rw [List.flatMap_cons, total_append, total_port, ih]
      rfl
  have head : sizes.total (enumeratePorts ports) = 5 + sizes.total (ports.flatMap encodePort) := rfl
  rw [head, loop]
  unfold EiSizes.replySize
  omega

theorem respIndices_le_iff (ports : List PortInfo) :
    (∀ i ∈ sizes.respIndices ports, i ≤ 4096) ↔ sizes.replySize ports ≤ 4096 := by
  unfold EiSizes.respIndices
  rw [List.forall_mem_cons, List.forall_mem_cons, indices_le_iff, total_reply,
    and_iff_right (by decide), and_iff_right (by decide)]

theorem respIndices_getLast (ports : List PortInfo) :
    (sizes.respIndices ports).getLast? = some (sizes.replySize ports) := by
  unfold EiSizes.respIndices
  rw [List.getLast?_cons, List.getLast?_cons, indices_getLast, total_reply]
  rfl

end

/-! ## How it is read -/

section

variable {tags : List Etf.Tag} {ts : List Etf.Term} (h : Etf.ofTags tags = some ts)

include h

theorem ofTags_cons {tag : Etf.Tag} {ts' : List Etf.Term} (reads : tag.push ts = some ts') :
    Etf.ofTags (tag :: tags) = some ts' := by
  show (Etf.ofTags tags).bind tag.push = _
  rw [h]
  exact reads

theorem ofTags_field {α : Type} (key : String) {tag : α → Etf.Tag} {term : α → Etf.Term}
    (reads : ∀ a ts, (tag a).push ts = some (term a :: ts)) (value : Option α) :
    Etf.ofTags (encodeField key (value.map tag) ++ tags) =
      some (fieldEntry key term value ++ ts) := by
  cases value with
  | none => exact h
  | some a => exact ofTags_cons (ofTags_cons h (reads a ts)) rfl

theorem ofTags_string (key : String) (string : Option (List UInt8)) :
    Etf.ofTags (encodeField key (string.map .binary) ++ tags) =
      some (fieldEntry key .binary string ++ ts) :=
  ofTags_field h key (fun _ _ => rfl) string

theorem ofTags_id (key : String) (id : Option Int) :
    Etf.ofTags (encodeField key (id.map .int) ++ tags) = some (fieldEntry key .int id ++ ts) :=
  ofTags_field h key (fun _ _ => rfl) id

theorem ofTags_present (port : PortInfo) :
    Etf.ofTags ((port.present.flatMap fun field => encodeField field.1 field.2) ++ tags) =
      some (port.fields ++ ts) := by
  have product := ofTags_id h "product_id" (positive port.pid)
  have vendor := ofTags_id product "vendor_id" (positive port.vid)
  have serial := ofTags_string vendor "serial_number" port.serialNumber
  have manufacturer := ofTags_string serial "manufacturer" port.manufacturer
  have description := ofTags_string manufacturer "description" port.description
  simpa [PortInfo.present, PortInfo.fields] using description

end

/-! ## The fields of a port -/

theorem length_field {α : Type} (key : String) (term : α → Etf.Term) (value : Option α) :
    (fieldEntry key term value).length = 2 * if value.isSome then 1 else 0 := by
  cases value <;> rfl

theorem isSome_positive (id : Int) : (positive id).isSome = true ↔ id > 0 := by
  unfold positive
  split <;> simp [*]

/-- `info_count` counts the fields that are written. -/
theorem length_fields (port : PortInfo) : port.fields.length = 2 * port.infoCount := by
  unfold PortInfo.fields PortInfo.infoCount
  simp only [List.length_append, length_field, isSome_positive]
  omega

/-- The key of a field comes first, and its value is none. -/
theorem keys_field {α : Type} (key : String) (term : α → Etf.Term) (value : Option α)
    (rest : List Etf.Term) :
    (Etf.keys (fieldEntry key term value ++ rest)).Sublist (.atom key :: Etf.keys rest) := by
  cases value with
  | none => exact (List.Sublist.refl _).cons _
  | some a => exact List.Sublist.refl _

theorem fields_distinct (port : PortInfo) :
    (Etf.keys port.fields).Pairwise fun a b => a.same b = false := by
  have last := keys_field "product_id" .int (positive port.pid) []
  rw [List.append_nil] at last
  have known : (Etf.keys port.fields).Sublist [.atom "description", .atom "manufacturer",
      .atom "serial_number", .atom "vendor_id", .atom "product_id"] :=
    (keys_field ..).trans <| .cons_cons _ <| (keys_field ..).trans <| .cons_cons _ <|
      (keys_field ..).trans <| .cons_cons _ <| (keys_field ..).trans <| .cons_cons _ last
  exact List.Pairwise.sublist known (by decide)

/-! ## Every reply -/

theorem ofTags_ports (ports : List PortInfo) :
    Etf.ofTags (ports.flatMap encodePort) = some (entries ports) := by
  induction ports with
  | nil => rfl
  | cons port ports ih =>
    have fields := ofTags_present ih port
    have info := Etf.Tag.push_map (fields_distinct port) (entries ports)
    rw [length_fields] at info
    rw [List.flatMap_cons]
    exact ofTags_cons (ofTags_cons fields info) rfl

theorem keys_entries (ports : List PortInfo) :
    Etf.keys (entries ports) = (ports.map PortInfo.name).map .binary := by
  induction ports with
  | nil => rfl
  | cons port ports ih => exact congrArg (Etf.Term.binary port.name :: ·) ih

theorem length_entries (ports : List PortInfo) : (entries ports).length = 2 * ports.length := by
  induction ports with
  | nil => rfl
  | cons port ports ih =>
    show (entries ports).length + 2 = _
    rw [ih, List.length_cons]
    omega

/-- Nothing that is written is read otherwise: only the buffer's size is in doubt. -/
theorem receive_reply (found : Discovered) :
    receive (enumeratePorts found.ports) = some (.map (entries found.ports)) := by
  have names : (Etf.keys (entries found.ports)).Pairwise fun a b => a.same b = false := by
    rw [keys_entries, List.pairwise_map]
    exact found.distinct.imp fun ne => decide_eq_false ne
  have map := Etf.Tag.push_map names []
  rw [length_entries, List.append_nil] at map
  unfold receive enumeratePorts
  rw [ofTags_cons (ofTags_ports found.ports) map]

/-- The reply arrives if it is no longer than `resp`. -/
theorem arrives_of_le {sizes : EiSizes} {found : Discovered}
    (fits : sizes.replySize found.ports ≤ 4096) : Arrives sizes found.ports := by
  refine ⟨(respIndices_le_iff sizes found.ports).mpr fits, fun index last => ?_,
    receive_reply found⟩
  rw [respIndices_getLast] at last
  obtain rfl := Option.some.inj last
  omega

/-- **The reply arrives exactly if it is no longer than `resp`.** -/
theorem reply_arrives_iff (sizes : EiSizes) (found : Discovered) :
    Arrives sizes found.ports ↔ sizes.replySize found.ports ≤ 4096 := by
  constructor
  · intro arrives
    -- the last index is the largest, and is the length
    exact (respIndices_le_iff sizes found.ports).mp arrives.inside
  · intro fits
    exact arrives_of_le fits

theorem exists_index_past {sizes : EiSizes} {ports : List PortInfo}
    (long : 4096 < sizes.replySize ports) : ∃ index ∈ sizes.respIndices ports, 4096 < index :=
  ⟨_, List.mem_of_getLast? (respIndices_getLast sizes ports), long⟩

/-- An FTDI adapter. -/
def adapter (n : UInt8) : PortInfo where
  name := ascii "ttyUSB" ++ [49 + n / 10, 48 + n % 10]
  description := ascii "FT232R USB UART"
  manufacturer := ascii "FTDI"
  serialNumber := ascii "A10K5ZGX"
  vid := 0x403
  pid := 0x6001

/-- The ports `ttyUSB10` to `ttyUSB40`. -/
def adapters : Discovered where
  ports := (List.range 31).map fun n => adapter (UInt8.ofNat n)
  distinct := by decide

/-- The reply for 31 adapters runs past the end of `resp`. -/
theorem reply_overruns :
    let sizes : EiSizes := ⟨2, .inl rfl, fun _ => 5, fun _ => by decide⟩
    (∃ index ∈ sizes.respIndices adapters.ports, 4096 < index) ∧
      ¬ Arrives sizes adapters.ports := by
  intro sizes
  have long : ∃ index ∈ sizes.respIndices adapters.ports, 4096 < index :=
    exists_index_past (by decide)
  refine ⟨long, fun arrives => ?_⟩
  obtain ⟨index, inside, past⟩ := long
  exact Nat.not_le_of_lt past (arrives.inside index inside)

/-! ## What is discovered -/

theorem exists_option {pointer : Pointer} (h : pointer ≠ .released) :
    ∃ string, Pointer.ofOption string = pointer := by
  cases pointer with
  | null => exact ⟨none, rfl⟩
  | live string => exact ⟨some string, rfl⟩
  | released => exact absurd rfl h

theorem Sysfs.Describes.exists_port {fs : Sysfs} {port : List UInt8 × List UInt8}
    {info : SerialInfo} (describes : fs.Describes port info) :
    ∃ found : PortInfo, found.info = info ∧ found.name = port.1 := by
  obtain ⟨description, hd⟩ := exists_option (describes.ne_released .description)
  obtain ⟨manufacturer, hm⟩ := exists_option (describes.ne_released .manufacturer)
  obtain ⟨serialNumber, hs⟩ := exists_option (describes.ne_released .serialNumber)
  refine ⟨⟨port.1, description, manufacturer, serialNumber, info.vid, info.pid⟩, ?_, rfl⟩
  unfold PortInfo.info
  rw [hd, hm, hs, ← describes.name]
  rfl

theorem Sysfs.exists_ports {fs : Sysfs} {ports : List (List UInt8 × List UInt8)}
    {infos : List SerialInfo} (described : List.Forall₂ fs.Describes ports infos) :
    ∃ found : List PortInfo, found.map PortInfo.info = infos ∧
      found.map PortInfo.name = ports.map Prod.fst := by
  induction described with
  | nil => exact ⟨[], rfl, rfl⟩
  | cons describes _ ih =>
    obtain ⟨found, rfl, names⟩ := ih
    obtain ⟨port, rfl, name⟩ := describes.exists_port
    exact ⟨port :: found, rfl, congrArg₂ List.cons name names⟩

/-- An adapter that has a product name and both ids, and no other attribute. -/
def productAdapter : Sysfs where
  ttys := some [ascii "ttyUSB0"]
  file := fun path =>
    if path = ascii "/sys/class/tty/ttyUSB0/device/uevent" then .holding (ascii "DRIVER=ftdi_sio\n")
    else if path = ascii "/sys/class/tty/usb/product" then .holding (ascii "FT232R\n")
    else if path = ascii "/sys/class/tty/usb/idVendor" then .holding (ascii "0403\n")
    else if path = ascii "/sys/class/tty/usb/idProduct" then .holding (ascii "6001\n")
    else .absent
  readlink := fun _ => some (ascii "usb")
  serialType := fun _ => none
  stale := fun _ => []

end Enum

end CircuitsUart
