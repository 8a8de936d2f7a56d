import SocPeripherals.Text.Hex
import SocPeripherals.Width

/-!
# Memory buses

A bus answers reads and writes of a given width at a 32-bit address, either with a value or
with one of four errors. It is a pure value: an access returns the bus as it is afterwards.
-/

namespace SocPeripherals

/-- The ways in which a bus refuses an access. -/
inductive BusError where
  | loadMisaligned
  | loadFault
  | storeMisaligned
  | storeFault
deriving DecidableEq, Repr

/-- The error's written name. -/
def BusError.name : BusError → String
  | loadMisaligned => "LoadAddrMisaligned"
  | loadFault => "LoadAccessFault"
  | storeMisaligned => "StoreAddrMisaligned"
  | storeFault => "StoreAccessFault"

/-- What can be asked of a bus. -/
inductive BusCall where
  | read (width : Width) (address : UInt32)
  | write (width : Width) (address value : UInt32)
  | poll
  | reset
deriving DecidableEq, Repr

/-- One line of text for a call. -/
def BusCall.line : BusCall → String
  | read width address => s!"read(BusSize::{width.name}, {Text.hex address.toNat})"
  | write width address value =>
      s!"write(BusSize::{width.name}, {Text.hex address.toNat}, {Text.hex value.toNat})"
  | poll => "poll()"
  | reset => "reset()"

/-- Values that answer bus accesses. -/
class Bus (μ : Type) where
  /-- Reads the value at an address, zero-extended. -/
  read : μ → Width → UInt32 → Except BusError UInt32 × μ
  /-- Writes the low bytes of a value at an address. -/
  write : μ → Width → UInt32 → UInt32 → Except BusError Unit × μ
  /-- Lets the bus do what has become due. -/
  poll : μ → μ
  /-- Returns the bus to its power-on state. -/
  reset : μ → μ

end SocPeripherals
