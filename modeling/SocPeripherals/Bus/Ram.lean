import SocPeripherals.Bus.Basic
import SocPeripherals.Storage

/-!
# Random access memory

A byte-addressed little-endian memory. An access succeeds when its width is valid, all of its
bytes lie inside the memory and its address is a multiple of its width; the range is checked
before the alignment.
-/

namespace SocPeripherals

/-- A memory of bytes, lowest address first. -/
structure Ram where
  bytes : Array UInt8
deriving DecidableEq, Repr

namespace Ram

/-- A memory holding the given bytes. -/
def ofList (bytes : List UInt8) : Ram := ⟨bytes.toArray⟩

/-- A memory of no bytes. -/
def empty : Ram := ⟨#[]⟩

/-- A memory of `count` zero bytes. -/
def zeroed (count : Nat) : Except Fault Ram := do
  Storage.reserve count
  return ⟨Array.replicate count 0⟩

/-- A memory of `count` bytes, each holding its own address modulo 256. -/
def counted (count : Nat) : Except Fault Ram := do
  Storage.reserve count
  return ofList ((List.range count).map UInt8.ofNat)

/-- The number of bytes. -/
def size (ram : Ram) : Nat := ram.bytes.size

/-- The number of bytes as an address, counted modulo the address space. -/
def addressSize (ram : Ram) : UInt32 := UInt32.ofNat ram.size

/-- The byte at an index, zero outside the memory. -/
def byteAt (ram : Ram) (index : Nat) : UInt8 := ram.bytes.getD index 0

/-- The width is valid and every byte of the access lies in the memory. -/
def Covers (ram : Ram) (width : Width) (address : UInt32) : Prop :=
  width ≠ .invalid ∧ address.toNat + width.bytes.toNat ≤ ram.size

instance (ram : Ram) (width : Width) (address : UInt32) : Decidable (ram.Covers width address) :=
  inferInstanceAs (Decidable (_ ∧ _))

/-- The address is a multiple of the width. -/
def Aligned (width : Width) (address : UInt32) : Prop :=
  address.toNat % width.bytes.toNat = 0

instance (width : Width) (address : UInt32) : Decidable (Aligned width address) :=
  inferInstanceAs (Decidable (_ = _))

/-- The little-endian value of `count` bytes from `start` on. -/
def load (ram : Ram) (start : Nat) : Nat → UInt32
  | 0 => 0
  | count + 1 => (ram.byteAt start).toUInt32 ||| (ram.load (start + 1) count <<< 8)

/-- Stores the `count` low bytes of a value from `start` on, lowest first. -/
def store (ram : Ram) (start : Nat) (value : UInt32) : Nat → Ram
  | 0 => ram
  | count + 1 =>
      Ram.store ⟨ram.bytes.setIfInBounds start value.toUInt8⟩ (start + 1) (value >>> 8) count

/-- Reads the little-endian value at an address. -/
def read (ram : Ram) (width : Width) (address : UInt32) : Except BusError UInt32 :=
  if ram.Covers width address then
    if Aligned width address then .ok (ram.load address.toNat width.bytes.toNat)
    else .error .loadMisaligned
  else .error .loadFault

/-- Writes the low bytes of a value at an address. A refused write changes nothing. -/
def write (ram : Ram) (width : Width) (address value : UInt32) : Except BusError Unit × Ram :=
  if ram.Covers width address then
    if Aligned width address then (.ok (), ram.store address.toNat value width.bytes.toNat)
    else (.error .storeMisaligned, ram)
  else (.error .storeFault, ram)

/-- Replaces one byte. An index past the memory is a fault. -/
def poke (ram : Ram) (index : Nat) (byte : UInt8) : Except Fault Ram :=
  if index < ram.size then .ok ⟨ram.bytes.setIfInBounds index byte⟩
  else .error (.indexOutOfBounds ram.size index)

instance : Bus Ram where
  read ram width address := (ram.read width address, ram)
  write := write
  poll ram := ram
  reset ram := ram

theorem size_store (ram : Ram) (start count : Nat) (value : UInt32) :
    (ram.store start value count).size = ram.size := by
  induction count generalizing ram start value with
  | zero => rfl
  | succ count ih =>
      rw [store, ih]
      exact Array.size_setIfInBounds

end Ram

end SocPeripherals
