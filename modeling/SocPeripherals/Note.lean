import SocPeripherals.Bus.Basic
import SocPeripherals.DeviceError

/-!
# Notes

The remarks that devices make for a log. A note never influences a device; it says what the
device has just done, or what it has refused to do.
-/

namespace SocPeripherals

/-- How much attention a note asks for. -/
inductive NoteLevel where
  | warning
  | debug
  | detail
deriving DecidableEq, Repr

/-- The level's written name. -/
def NoteLevel.name : NoteLevel → String
  | warning => "WARN"
  | debug => "DEBUG"
  | detail => "TRACE"

/-- The remarks of all devices. -/
inductive Note where
  /-- No register of the device contains the offset. -/
  | noRegister (device : String) (offset : UInt32)
  /-- The access does not cover the register exactly. -/
  | partialAccess (device : String) (offset : UInt32) (width : Width)
  | lineChanged (high : Bool)
  | acknowledged (source : UInt8)
  | periodsSkipped (count : UInt64)
  | timerStarted (timer : Nat) (reload : UInt32)
  | timerStopped (timer : Nat)
  | timerExpired (timer : Nat)
  | uartDisabled (uart : Nat)
  | receiveWhileDisabled (uart : Nat) (byte : UInt8)
  | receiveOverrun (uart : Nat) (byte : UInt8)
  | transmitWhileDisabled (uart : Nat) (byte : UInt8)
  | transmitWhileBusy (uart : Nat) (byte : UInt8)
  | transmitted (uart : Nat) (byte : UInt8)
  | breakDetected (uart : Nat)
  | transferStarted (channel : Nat) (count : UInt32) (unit : Width) (source target : UInt32)
  | transferFault (channel : Nat) (error : BusError) (source target : UInt32)
  | transferDone (channel : Nat) (failed : Bool)
  /-- A write to a register of a channel that is moving data. -/
  | writeWhileActive (channel : Nat) (offset : UInt32)
  | readOutOfRange (address : UInt32)
  | writeOutOfRange (address : UInt32)
  | readUnmapped (address : UInt32)
  | writeUnmapped (address : UInt32)
deriving DecidableEq, Repr

namespace Note

/-- Refusals of what a program or a host asked for are warnings, changes of a device's course
are debugging notes, and the steps on it are details. -/
def level : Note → NoteLevel
  | receiveOverrun .. | transmitWhileBusy .. | transferFault .. | writeWhileActive ..
  | readOutOfRange .. | writeOutOfRange .. => .warning
  | lineChanged .. | acknowledged .. | periodsSkipped .. | timerExpired .. | transmitted ..
  | transferDone .. => .detail
  | noRegister .. | partialAccess .. | timerStarted .. | timerStopped .. | uartDisabled ..
  | receiveWhileDisabled .. | transmitWhileDisabled .. | breakDetected ..
  | transferStarted .. | readUnmapped .. | writeUnmapped .. => .debug

/-- A byte as it appears in a note. -/
def byteText (byte : UInt8) : String := Text.paddedHex 2 byte.toNat

/-- A memory address as it appears in a note. -/
def addressText (address : UInt32) : String := Text.paddedHex 8 address.toNat

/-- The note's text. -/
def message : Note → String
  | noRegister device offset => s!"{device}: no register at offset {Text.hex offset.toNat}"
  | partialAccess device offset width =>
      s!"{device}: {DeviceError.message (.partialAccess offset width)}"
  | lineChanged high =>
      if high then "intc: cpu interrupt line asserted" else "intc: cpu interrupt line deasserted"
  | acknowledged source => s!"intc: acknowledge source {source}"
  | periodsSkipped count => s!"timer: {count} missed period(s) skipped"
  | timerStarted timer reload => s!"timer{timer}: start, reload {Text.hex reload.toNat}"
  | timerStopped timer => s!"timer{timer}: stop"
  | timerExpired timer => s!"timer{timer}: expired"
  | uartDisabled uart => s!"uart{uart}: disabled"
  | receiveWhileDisabled uart byte => s!"uart{uart}: disabled, dropping rx {byteText byte}"
  | receiveOverrun uart byte =>
      s!"{DeviceError.message (.queueOverrun uart)}, dropping {byteText byte}"
  | transmitWhileDisabled uart byte => s!"uart{uart}: disabled, dropping tx {byteText byte}"
  | transmitWhileBusy uart byte =>
      s!"uart{uart}: transmitter busy, dropping tx {byteText byte}"
  | transmitted uart byte => s!"uart{uart}: tx {byteText byte}"
  | breakDetected uart => s!"uart{uart}: break"
  | transferStarted channel count unit source target =>
      s!"dma{channel}: {count} x {unit.name} from {addressText source} to {addressText target}"
  | transferFault channel error source target =>
      s!"dma{channel}: {error.name} at {addressText source} -> {addressText target}"
  | transferDone channel failed =>
      if failed then s!"dma{channel}: done with error" else s!"dma{channel}: done"
  | writeWhileActive channel offset =>
      s!"dma{channel}: invalid state: dma{channel} transfer in progress, " ++
        s!"write to {Text.hex offset.toNat} ignored"
  | readOutOfRange address => s!"soc: read {DeviceError.message (.outOfRange address)}"
  | writeOutOfRange address => s!"soc: write {DeviceError.message (.outOfRange address)}"
  | readUnmapped address => s!"soc: read of unmapped offset {Text.hex address.toNat}"
  | writeUnmapped address => s!"soc: write of unmapped offset {Text.hex address.toNat}"

/-- The line that a log keeps of a note. -/
def line (note : Note) : String := s!"{note.level.name} {note.message}"

end Note

end SocPeripherals
