import CircuitsUart.Lib.Flags
import CircuitsUart.Wire

/-!
# The terminal, as the C program sees it

The values of `<termios.h>` on Linux, the settings of a terminal device and the calls that
read and write them.

A device is free to apply only some of the control flags it is given: `Tty.applied` is the
set of those it does. Whether a call fails is left to the environment, one answer for each
place in the code that makes a call.

The settings are one record, `Termios`, although the program has two of them, `struct termios` and
the `struct termios2` of its custom speeds: the kernel keeps one, and either call shows it. That
matters for the speed. Its code is in `c_cflag`, and the rates count only under the code `BOTHER`;
so `tcsetattr`, which knows no rates, ends a custom speed merely by writing another code.
-/

set_option autoImplicit false

namespace CircuitsUart.Port

open Lib

/-! ## Values -/

abbrev Flags := BitVec 32

-- `c_cflag`
abbrev CBAUD : Flags := 0x100f#32
abbrev CSIZE : Flags := 0x30#32
abbrev CS5 : Flags := 0x00#32
abbrev CS6 : Flags := 0x10#32
abbrev CS7 : Flags := 0x20#32
abbrev CS8 : Flags := 0x30#32
abbrev CSTOPB : Flags := 0x40#32
abbrev CREAD : Flags := 0x80#32
abbrev PARENB : Flags := 0x100#32
abbrev PARODD : Flags := 0x200#32
abbrev CLOCAL : Flags := 0x800#32
abbrev CMSPAR : Flags := 0x40000000#32
abbrev CRTSCTS : Flags := 0x80000000#32
abbrev B38400 : Flags := 0x000f#32
abbrev BOTHER : Flags := 0x1000#32

-- `c_iflag`
abbrev IGNPAR : Flags := 0x4#32
abbrev PARMRK : Flags := 0x8#32
abbrev ISTRIP : Flags := 0x20#32
abbrev INLCR : Flags := 0x40#32
abbrev IGNCR : Flags := 0x80#32
abbrev ICRNL : Flags := 0x100#32
abbrev IUCLC : Flags := 0x200#32
abbrev IXON : Flags := 0x400#32
abbrev IXANY : Flags := 0x800#32
abbrev IXOFF : Flags := 0x1000#32

-- `struct serial_struct` and `struct serial_rs485`
abbrev ASYNC_SPD_CUST : Flags := 0x30#32
abbrev ASYNC_SPD_MASK : Flags := 0x1030#32
abbrev SER_RS485_ENABLED : Flags := 0x1#32
abbrev SER_RS485_RTS_ON_SEND : Flags := 0x2#32
abbrev SER_RS485_RTS_AFTER_SEND : Flags := 0x4#32
abbrev SER_RS485_RX_DURING_TX : Flags := 0x10#32
abbrev SER_RS485_TERMINATE_BUS : Flags := 0x20#32

/-! ## The device -/

/-- `struct termios2`: what `tcgetattr` returns, and the rates that go with `BOTHER`. -/
structure Termios where
  iflag : Flags
  oflag : Flags
  cflag : Flags
  lflag : Flags
  vmin : UInt8
  vtime : UInt8
  ispeed : BitVec 32
  ospeed : BitVec 32
  deriving DecidableEq, Repr

/-- `struct serial_struct`. -/
structure SerialStruct where
  flags : Flags
  customDivisor : Int
  deriving DecidableEq, Repr

/-- `struct serial_rs485`. -/
structure SerialRs485 where
  flags : Flags
  delayRtsBeforeSend : BitVec 32
  delayRtsAfterSend : BitVec 32
  deriving DecidableEq, Repr

/-- A terminal device: its settings, and the control flags it lets be set. -/
structure Tty where
  termios : Termios
  serial : SerialStruct
  rs485 : SerialRs485
  applied : Flags
  deriving DecidableEq, Repr

/-- A device none of whose settings is set, and that sets whatever it is asked to. -/
def Tty.raw : Tty where
  termios := ⟨0, 0, 0, 0, 0, 0, 0, 0⟩
  serial := ⟨0, 0⟩
  rs485 := ⟨0, 0, 0⟩
  applied := BitVec.allOnes 32

/-- The speed in force: one of the rates that have a code, or the rate given to `TCSETS2`. -/
inductive LineSpeed
  | code (code : Flags)
  | rate (rate : BitVec 32)
  deriving DecidableEq, Repr

def Termios.speed (t : Termios) : LineSpeed :=
  if t.cflag &&& CBAUD = BOTHER then .rate t.ospeed else .code (t.cflag &&& CBAUD)

theorem Termios.baud_eq_of_speed_eq {t t' : Termios} (h : t.speed = t'.speed) :
    t.cflag &&& CBAUD = t'.cflag &&& CBAUD := by
  unfold Termios.speed at h
  split at h <;> split at h <;> simp_all

theorem Termios.speed_eq {t t' : Termios} (baud : t.cflag &&& CBAUD = t'.cflag &&& CBAUD)
    (rate : t.cflag &&& CBAUD = BOTHER → t.ospeed = t'.ospeed) : t.speed = t'.speed := by
  unfold Termios.speed
  rw [← baud]
  split
  · next h => rw [rate h]
  · rfl

/-! ### What a control word means -/

/-- The data bits `CSIZE` stands for. -/
def charSize (cflag : Flags) : Int := 5 + ((cflag &&& CSIZE) >>> 4).toNat

def stopBits (cflag : Flags) : Int := if cflag &&& CSTOPB = 0 then 1 else 2

def parity (cflag : Flags) : Parity :=
  if cflag &&& PARENB = 0 then .none
  else if cflag &&& CMSPAR = 0 then if cflag &&& PARODD = 0 then .even else .odd
  else if cflag &&& PARODD = 0 then .space else .mark

/-! ### The calls -/

/-- `tcsetattr(fd, TCSANOW, &options)`, which knows no rates. -/
def Tty.tcsetattr (tty : Tty) (options : Termios) : Tty :=
  { tty with termios := { options with
      cflag := Lib.applied tty.applied tty.termios.cflag options.cflag
      ispeed := tty.termios.ispeed
      ospeed := tty.termios.ospeed } }

/-- Whether the device takes the baud bits it is given. -/
def Tty.setsBaud (tty : Tty) : Bool := tty.applied &&& CBAUD = CBAUD

/-- `ioctl(fd, TCSETS2, &options)`. A device that does not take the baud bits keeps its
rate. -/
def Tty.tcsets2 (tty : Tty) (options : Termios) : Tty :=
  { tty with termios := { options with
      cflag := Lib.applied tty.applied tty.termios.cflag options.cflag
      ispeed := if tty.setsBaud then options.ispeed else tty.termios.ispeed
      ospeed := if tty.setsBaud then options.ospeed else tty.termios.ospeed } }

/-! ## Errors -/

/-- `errno`. -/
inductive Errno
  | zero
  | enoent
  | ebadf
  | eperm
  | eacces
  | eagain
  | ecanceled
  | eio
  | eintr
  | enotty
  | einval
  | other (number : Nat)
  deriving DecidableEq, Repr

/-- `record_last_error`. -/
def recordLastError : Errno → Reason
  | .zero => .ok
  | .enoent => .enoent
  | .ebadf => .ebadf
  | .eperm => .eperm
  | .eacces => .eacces
  | .eagain => .eagain
  | .ecanceled => .ecanceled
  | .eio => .eio
  | .eintr => .eintr
  | .enotty => .enotty
  | .einval => .einval
  | .other _ => .einval

/-- The calls that may fail, by the place that makes them; `open`, `read` and `write` have
results of their own. -/
inductive CallSite
  | flock
  | lineGet
  | lineSet
  | lineCheck
  | serialGet
  | serialSet
  | flowGet
  | flowSet
  | speedGet
  | speedSet
  | rs485Get
  | rs485Set
  | rs485Report
  | tcflush
  | tcdrain
  | modemGet
  | modemSet
  | breakSet
  deriving DecidableEq, Repr

/-- Which calls fail, and how. -/
abbrev Fails := CallSite → Option Errno

/-- The device behind the descriptor, and `errno`. -/
structure Dev where
  tty : Tty := .raw
  errno : Errno := .zero
  deriving DecidableEq, Repr

/-- Goes on only after success: a function of the source that returns an `int`, with `true`
for `>= 0`. -/
def andThen (r : Bool × Dev) (go : Dev → Bool × Dev) : Bool × Dev :=
  match r with
  | (true, d) => go d
  | (false, d) => (false, d)

theorem andThen_eq_true {r : Bool × Dev} {d' : Dev} {go : Dev → Bool × Dev}
    (h : andThen r go = (true, d')) : ∃ d, r = (true, d) ∧ go d = (true, d') := by
  obtain ⟨ok, d⟩ := r
  cases ok with
  | true => exact ⟨d, rfl, h⟩
  | false => exact absurd h (by simp [andThen])

/-- A call that ends the function it is in when it fails: `< 0` leaves `errno` behind. -/
def Dev.attempt (fails : Fails) (site : CallSite) (d : Dev) (go : Dev → Bool × Dev) : Bool × Dev :=
  match fails site with
  | some errno => (false, { d with errno := errno })
  | none => go d

theorem Dev.attempt_eq_true {fails : Fails} {site : CallSite} {d d' : Dev} {go : Dev → Bool × Dev}
    (h : d.attempt fails site go = (true, d')) : go d = (true, d') := by
  unfold Dev.attempt at h
  split at h
  · exact absurd h (by simp)
  · exact h

end CircuitsUart.Port
