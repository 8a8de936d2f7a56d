import SocPeripherals.Width

/-!
# Registers

A register is a named word at an offset of its device's window, with a natural width, a
power-on value and a rule for bus accesses. A bus access selects the byte lanes of one register
that it covers; lanes beyond the register's end are dropped rather than reaching its neighbour.
-/

namespace SocPeripherals

/-- How bus accesses treat a register. The device itself stores into it without these rules. -/
inductive AccessRule where
  | readWrite
  /-- Bus writes are ignored. -/
  | readOnly
  /-- Bus reads give 0. -/
  | writeOnly
  /-- A written 1 clears the bit, a written 0 leaves it. -/
  | writeOneToClear
  /-- Bus writes are ignored, and the listed bits are cleared once a read has sampled them. -/
  | clearOnRead (bits : UInt32)
deriving DecidableEq, Repr

/-- One register of a device. -/
structure Register where
  name : String
  /-- The address of its lowest byte within the device. -/
  offset : UInt32
  width : Width
  /-- Its power-on value. -/
  reset : UInt32
  access : AccessRule
deriving DecidableEq, Repr

/-- The byte lanes of one register that an access covers. -/
structure Lane where
  /-- The bit position of the first covered lane. -/
  shift : UInt32
  /-- The covered bits, in register position. -/
  mask : UInt32
  /-- The access covers the register exactly. -/
  exact : Bool
deriving DecidableEq, Repr

namespace Lane

/-- The covered bits of a register value, moved down to bit 0. -/
def extract (lane : Lane) (value : UInt32) : UInt32 :=
  (value &&& lane.mask) >>> lane.shift

/-- A bus value moved into register position, without the bits that are not covered. -/
def place (lane : Lane) (value : UInt32) : UInt32 :=
  (value <<< lane.shift) &&& lane.mask

/-- The register value with the covered bits replaced by those of a bus value. -/
def merge (lane : Lane) (old value : UInt32) : UInt32 :=
  (old &&& ~~~lane.mask) ||| lane.place value

/-- Some of the given bits are covered. -/
def touches (lane : Lane) (bits : UInt32) : Bool :=
  lane.mask &&& bits != 0

end Lane

namespace Register

/-- The register's bytes include the address. -/
def Contains (register : Register) (address : UInt32) : Prop :=
  register.offset ≤ address ∧ address - register.offset < register.width.bytes

instance (register : Register) (address : UInt32) : Decidable (register.Contains address) :=
  inferInstanceAs (Decidable (_ ∧ _))

/-- The lanes that an access of a width covers when it starts at an address of the register. -/
def lane (register : Register) (width : Width) (address : UInt32) : Lane :=
  let shift := (address - register.offset) * 8
  { shift
    mask := (width.mask <<< shift) &&& register.width.mask
    exact := shift == 0 && width == register.width }

end Register

/-- A register of a table, with the lanes of it that an access covers. -/
structure Selection (table : List Register) where
  index : Fin table.length
  lane : Lane
deriving DecidableEq

namespace Selection

variable {table : List Register}

/-- The register selected. -/
def register (selection : Selection table) : Register := table.get selection.index

/-- The first register that contains the address, with the lanes covered there. An access of
the invalid width selects nothing. -/
def find? (table : List Register) (width : Width) (address : UInt32) :
    Option (Selection table) :=
  if width = .invalid then none
  else
    (table.findFinIdx? fun register => register.Contains address).map fun index =>
      { index, lane := (table.get index).lane width address }

theorem contains_of_find? {width : Width} {address : UInt32} {selection : Selection table}
    (found : find? table width address = some selection) :
    selection.register.Contains address ∧
      selection.lane = selection.register.lane width address := by
  unfold find? at found
  split at found
  · contradiction
  · obtain ⟨index, position, rfl⟩ := Option.map_eq_some_iff.1 found
    have holds := (List.findFinIdx?_eq_some_iff.1 position).1
    exact ⟨of_decide_eq_true holds, rfl⟩

end Selection

end SocPeripherals
