import SocPeripherals.Text.Hex
import SocPeripherals.Width

/-!
# Device errors

What a device reports to its host or to the log. A bus access to a device itself only ever
fails with a bus error.
-/

namespace SocPeripherals

/-- The conditions that a device reports. -/
inductive DeviceError where
  /-- An access beside the window of the block. -/
  | outOfRange (address : UInt32)
  /-- A request that does not fit the state of the device. -/
  | invalidState (reason : String)
  /-- A byte arrived while the receive queue of an interface was full. -/
  | queueOverrun (uart : Nat)
  /-- An access narrower than its register, or beside its first byte. -/
  | partialAccess (address : UInt32) (width : Width)
  /-- A saved state that is not one of this device. -/
  | snapshotMismatch (reason : String)
deriving DecidableEq, Repr

/-- The error's written description. -/
def DeviceError.message : DeviceError → String
  | outOfRange address =>
      s!"access at {Text.hex address.toNat} is outside the peripheral window"
  | invalidState reason => s!"invalid state: {reason}"
  | queueOverrun uart => s!"uart{uart} receive queue overrun"
  | partialAccess address width =>
      s!"{width.name} access at {Text.hex address.toNat} does not match the register width"
  | snapshotMismatch reason => s!"snapshot does not fit this device: {reason}"

end SocPeripherals
