import CircuitsUart.Lib.Climb
import CircuitsUart.Port.Program

/-!
# Serial ports found under `/sys`

`find_serialports` follows each link in `/sys/class/tty` and looks for the five attributes of a
USB device in the directory the link names, then in the one above it, until a directory has at
least one of them.

`try_read_all` sets its result as soon as a file opens. If the file gives nothing, the buffer is
freed and the result still points to it. The next directory that has the attribute sets the
result again; if none does before the climb ends, a released pointer is what is left.

So a string is a `Pointer` here, with a case for one that has been released, and `free` is partial.
Nothing else of the heap is needed: no two results share a buffer, and what a released one points
to is never said.

The system is a record of functions, one for each question the program asks of it, and the same
question has the same answer throughout. The loop that climbs is `Lib.climb`, with a bound on its
visits.
-/

set_option autoImplicit false

namespace CircuitsUart

open Lib Port

namespace Enum

/-! ## Strings and files -/

/-- `'/'`. -/
abbrev slash : UInt8 := 47

/-- `'\n'`. -/
abbrev newline : UInt8 := 10

/-- A `char *`. -/
inductive Pointer
  | null
  | live (string : List UInt8)
  | released
  deriving DecidableEq, Repr

/-- A file, as `fopen` and `fread` find it. -/
inductive File
  | absent
  | unreadable
  | failing
  | holding (text : List UInt8)

/-- What `fopen` and `fread` into `max_filesize - 1` bytes give: nothing if the file does not
open, and no bytes if it is empty or cannot be read. -/
def File.fread : File → Option (List UInt8)
  | .absent => none
  | .unreadable => none
  | .failing => some []
  | .holding text => some (text.take 4095)

/-- The first line, however long. -/
def File.firstLine : File → Option (List UInt8)
  | .holding text => some (text.takeWhile (· ≠ newline))
  | _ => none

/-- `strtol(s, NULL, 16)`. -/
def strtol16 (s : List UInt8) : Int :=
  let s := s.dropWhile fun c => c = 32 ∨ (9 ≤ c ∧ c ≤ 13)
  let negative := s.head? = some 45
  let s := if s.head? = some 45 ∨ s.head? = some 43 then s.drop 1 else s
  let s := if s.take 2 = ascii "0x" ∨ s.take 2 = ascii "0X" then s.drop 2 else s
  let digits := (s.map hexDigit).takeWhile Option.isSome
  let value : Int := digits.foldl (fun n digit => 16 * n + (digit.getD 0 : Nat)) 0
  if negative then max (-value) (-2 ^ 63) else min value (2 ^ 63 - 1)
where
  hexDigit (c : UInt8) : Option Nat :=
    if 48 ≤ c ∧ c ≤ 57 then some (c.toNat - 48)
    else if 65 ≤ c ∧ c ≤ 70 then some (c.toNat - 55)
    else if 97 ≤ c ∧ c ≤ 102 then some (c.toNat - 87)
    else none

/-- `strstr`: the string from the first occurrence of the key on. -/
def strstr (key : List UInt8) : List UInt8 → Option (List UInt8)
  | [] => if key = [] then some [] else none
  | c :: s => if key.isPrefixOf (c :: s) then some (c :: s) else strstr key s

/-! ## The system -/

/-- What the program asks of the system. -/
structure Sysfs where
  /-- What `scandir` finds in `/sys/class/tty`. -/
  ttys : Option (List (List UInt8))
  file : List UInt8 → File
  readlink : List UInt8 → Option (List UInt8)
  /-- The `type` that `TIOCGSERIAL` gives for a device that can be opened. -/
  serialType : List UInt8 → Option Int
  /-- What is read from memory that holds no string, by the path of the file it was for. -/
  stale : List UInt8 → List UInt8

/-- `struct serial_info`. -/
structure SerialInfo where
  name : Pointer := .null
  description : Pointer := .null
  manufacturer : Pointer := .null
  serialNumber : Pointer := .null
  vid : Int := 0
  pid : Int := 0
  deriving DecidableEq, Repr

/-- The fields of a `serial_info` that hold what an attribute says. -/
inductive Field
  | manufacturer
  | serialNumber
  | description

def SerialInfo.pointer (info : SerialInfo) : Field → Pointer
  | .manufacturer => info.manufacturer
  | .serialNumber => info.serialNumber
  | .description => info.description

/-- The file an attribute is in. -/
def Field.filename : Field → List UInt8
  | .manufacturer => ascii "manufacturer"
  | .serialNumber => ascii "serial"
  | .description => ascii "product"

namespace Sysfs

variable (fs : Sysfs)

/-- What the file with this name in the directory gives. -/
def read (directory filename : List UInt8) : Option (List UInt8) :=
  (fs.file (directory ++ slash :: filename)).fread

/-! ## `uart_enum_linux.c` -/

def tryReadAll (directory filename : List UInt8) (result : Pointer) : Bool × Pointer :=
  match fs.read directory filename with
  | none => (false, result)
  | some [] => (false, .released)
  | some bytes => (true, .live (Program.cString bytes))

def tryReadFirstLine (directory filename : List UInt8) (result : Pointer) : Bool × Pointer :=
  match fs.tryReadAll directory filename result with
  | (true, .live string) => (true, .live (string.takeWhile (· ≠ newline)))
  | other => other

def tryHexRead (directory filename : List UInt8) (result : Int) : Bool × Int :=
  match fs.tryReadFirstLine directory filename .null with
  | (true, .live string) => (true, toInt (strtol16 string))
  | _ => (false, result)

/-- `strtol` on a pointer that is not null. -/
def pointerStrtol (directory filename : List UInt8) : Pointer → Int
  | .live string => toInt (strtol16 string)
  | _ => toInt (strtol16 (fs.stale (directory ++ slash :: filename)))

def getSerialportInfo (path : List UInt8) (info : SerialInfo) : Bool × SerialInfo :=
  let manufacturer := fs.tryReadFirstLine path (ascii "manufacturer") info.manufacturer
  let serial := fs.tryReadFirstLine path (ascii "serial") info.serialNumber
  let vid := fs.tryHexRead path (ascii "idVendor") info.vid
  let pid := fs.tryHexRead path (ascii "idProduct") info.pid
  let product := fs.tryReadFirstLine path (ascii "product") info.description
  (manufacturer.1 || serial.1 || vid.1 || pid.1 || product.1,
    { info with
      manufacturer := manufacturer.2
      serialNumber := serial.2
      description := product.2
      vid :=
        if manufacturer.2 ≠ .null ∧ vid.2 = 0 then
          fs.pointerStrtol path (ascii "manufacturer") manufacturer.2
        else vid.2
      pid :=
        if product.2 ≠ .null ∧ pid.2 = 0 then
          fs.pointerStrtol path (ascii "product") product.2
        else pid.2 })

/-- The value after the key. Where nothing follows the key, not even the equal sign, the memory
after the string is read. -/
def parseUevent (contents key beyond : List UInt8) : Option (List UInt8) :=
  (strstr key contents).map fun location =>
    let value := if location.length ≤ key.length then Program.cString beyond
      else location.drop (key.length + 1)
    value.takeWhile (· ≠ newline)

def getDriver (ttyPath : List UInt8) : Option (List UInt8) :=
  match fs.tryReadAll ttyPath (ascii "device/uevent") .null with
  | (true, .live string) =>
    parseUevent string (ascii "DRIVER") (fs.stale (ttyPath ++ slash :: ascii "device/uevent"))
  | _ => none

/-- Whether the `type` is another than `PORT_UNKNOWN`. -/
def isRealSerial8250 (devname : List UInt8) : Bool :=
  match fs.serialType (ascii "/dev/" ++ devname) with
  | some type => type ≠ 0
  | none => false

def isRealSerialport (devname ttyPath : List UInt8) : Bool :=
  match fs.getDriver ttyPath with
  | some driver => !(driver = ascii "serial8250" && !fs.isRealSerial8250 devname)
  | none => (ascii "rfcomm").isPrefixOf devname || (ascii "tnt").isPrefixOf devname

/-- The names of serial ports begin so. -/
def ttyPrefixes : List String :=
  ["ttyS", "ttyO", "ttyUSB", "ttyACM", "ttyGS", "ttyMI", "ttymxc", "ttyAMA", "ttyTHS", "rfcomm",
    "ifcomm", "tnt"]

def isTtyFilename (name : List UInt8) : Bool :=
  ttyPrefixes.any fun start => (ascii start).isPrefixOf name

def sysClassTty : List UInt8 := ascii "/sys/class/tty/"

/-- The directory that a name in `/sys/class/tty` leads to, if it is a real port. -/
def follow (name : List UInt8) : Option (List UInt8) :=
  if fs.isRealSerialport name (sysClassTty ++ name) then
    match fs.readlink (sysClassTty ++ name) with
    | none => none
    | some [] => none
    | some target => some (sysClassTty ++ Program.cString target)
  else none

/-- One pass of the loop over the names. -/
def addSerialport (fuel : Nat) (infos : List SerialInfo) (name : List UInt8) :
    Option (List SerialInfo) :=
  match fs.follow name with
  | none => some infos
  | some path =>
    (climb slash fs.getSerialportInfo fuel path { name := .live name }).map (· :: infos)

/-- With at most so many directories visited for a port. -/
def findSerialports (fuel : Nat) : Option (List SerialInfo) :=
  match fs.ttys with
  | none => some []
  | some names => (names.filter isTtyFilename).foldlM (fs.addSerialport fuel) []

end Sysfs

/-! ## `uart_enum.c` -/

/-- `free`, with what it releases. A pointer that has been released is not to be freed again. -/
def Pointer.free : Pointer → Option (List (List UInt8))
  | .null => some []
  | .live string => some [string]
  | .released => none

def SerialInfo.pointers (info : SerialInfo) : List Pointer :=
  [info.name, info.description, info.serialNumber, info.manufacturer]

def serialInfoFree (info : SerialInfo) : Option (List (List UInt8)) :=
  (info.pointers.mapM Pointer.free).map List.flatten

def serialInfoFreeList (infos : List SerialInfo) : Option (List (List UInt8)) :=
  (infos.mapM serialInfoFree).map List.flatten

end Enum

end CircuitsUart
