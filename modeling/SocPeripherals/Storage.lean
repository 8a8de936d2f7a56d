import SocPeripherals.Fault

/-!
# Room for bytes

Distances inside a store of bytes are signed 64-bit numbers, so a store has room for at most
`Storage.largest` bytes. Room is asked for before the store is built.
-/

namespace SocPeripherals

namespace Storage

/-- The most bytes that a store has room for. -/
def largest : Nat := 0x7fffffffffffffff

/-- Asks for room for a number of bytes. -/
def reserve (count : Nat) : Except Fault Unit :=
  if count ≤ largest then .ok () else .error .storeTooLarge

theorem reserve_eq_ok_iff {count : Nat} : reserve count = .ok () ↔ count ≤ largest := by
  simp [reserve]

end Storage

end SocPeripherals
