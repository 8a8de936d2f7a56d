import SocPeripherals.Fault
import SocPeripherals.Register.Bank

/-!
# Banks addressed by number

The operations of a bank for a caller that numbers registers and makes up lanes on its own: a
number past the table, or a shift by the width of a word or more, is a fault.
-/

namespace SocPeripherals

namespace Lane

/-- The lane's covered bits of a value, if its shift stays within a word. -/
def extractChecked (lane : Lane) (value : UInt32) : Except Fault UInt32 :=
  if lane.shift < 32 then .ok (lane.extract value) else .error .shiftDownOverflow

/-- A value placed in the lane, if its shift stays within a word. -/
def placeChecked (lane : Lane) (value : UInt32) : Except Fault UInt32 :=
  if lane.shift < 32 then .ok (lane.place value) else .error .shiftUpOverflow

/-- A value merged through the lane, if its shift stays within a word. -/
def mergeChecked (lane : Lane) (old value : UInt32) : Except Fault UInt32 :=
  if lane.shift < 32 then .ok (lane.merge old value) else .error .shiftUpOverflow

end Lane

namespace Bank

variable {table : List Register}

/-- The register of a number. -/
def index (_ : Bank table) (number : Nat) : Except Fault (Fin table.length) :=
  if within : number < table.length then .ok ⟨number, within⟩
  else .error (.indexOutOfBounds table.length number)

/-- A bus read of a lane of the register of a number. -/
def readChecked (bank : Bank table) (number : Nat) (lane : Lane) :
    Except Fault (UInt32 × Bank table) := do
  let selection : Selection table := ⟨← bank.index number, lane⟩
  if selection.register.access ≠ .writeOnly then
    let _ ← lane.extractChecked (bank.get selection.index)
  return bank.read selection

/-- A bus write to a lane of the register of a number. -/
def writeChecked (bank : Bank table) (number : Nat) (lane : Lane) (value : UInt32) :
    Except Fault (Change × Bank table) := do
  let selection : Selection table := ⟨← bank.index number, lane⟩
  match selection.register.access with
  | .readWrite | .writeOnly | .writeOneToClear =>
      let _ ← lane.placeChecked value
      return bank.write selection value
  | .readOnly | .clearOnRead _ => return bank.write selection value

end Bank

end SocPeripherals
