import SocPeripherals.Fault

/-!
# Access widths

A bus access moves one byte, a half word or a word. A requested byte count that is none of
these becomes the `invalid` width, which covers no byte, so an access of that width never
reaches a register or a memory cell.
-/

namespace SocPeripherals

/-- How many bytes a bus access moves. -/
inductive Width where
  | byte
  | halfWord
  | word
  | invalid
deriving DecidableEq, Repr, Inhabited

namespace Width

/-- The widths that move at least one byte, narrowest first. -/
def valid : List Width := [byte, halfWord, word]

/-- The width that moves `count` bytes, `invalid` if there is none. -/
def ofCount : Nat → Width
  | 1 => byte
  | 2 => halfWord
  | 4 => word
  | _ => invalid

/-- The number of bytes moved, which the `invalid` width does not have. -/
def count? : Width → Option Nat
  | byte => some 1
  | halfWord => some 2
  | word => some 4
  | invalid => none

/-- The number of bytes moved. Asking it of the `invalid` width is a fault. -/
def count (width : Width) : Except Fault Nat :=
  match width.count? with
  | some count => .ok count
  | none => .error .widthWithoutValue

/-- The number of bytes covered. -/
def bytes : Width → UInt32
  | byte => 1
  | halfWord => 2
  | word => 4
  | invalid => 0

/-- The value bits covered, counted from bit 0. -/
def mask : Width → UInt32
  | byte => 0xff
  | halfWord => 0xffff
  | word => 0xffffffff
  | invalid => 0

/-- The width's written name. -/
def name : Width → String
  | byte => "Byte"
  | halfWord => "HalfWord"
  | word => "Word"
  | invalid => "Invalid"

theorem ofCount_eq_of_count? {width : Width} {count : Nat} (found : width.count? = some count) :
    ofCount count = width := by
  cases width <;> simp [count?] at found <;> subst found <;> rfl

theorem toNat_bytes {width : Width} {count : Nat} (found : width.count? = some count) :
    width.bytes.toNat = count := by
  cases width <;> simp [count?] at found <;> subst found <;> rfl

theorem toNat_bytes_le (width : Width) : width.bytes.toNat ≤ 4 := by
  cases width <;> decide

theorem mem_valid_iff {width : Width} : width ∈ valid ↔ width ≠ invalid := by
  cases width <;> simp [valid]

end Width

end SocPeripherals
