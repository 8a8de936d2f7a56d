import SocPeripherals.Parts
import SocPeripherals.Register.Basic

/-!
# Register banks

A bank holds the stored values of a table of registers. Bus accesses go through a selection and
follow the registers' access rules; the device itself reads and stores values by index. A stored
value that the device puts there is cut to the width of its register.
-/

namespace SocPeripherals

/-- The stored values of a table of registers, and the values that they have after a reset. -/
structure Bank (table : List Register) where
  values : Vector UInt32 table.length
  resets : Vector UInt32 table.length
deriving DecidableEq

/-- What a bus write made of a register. -/
structure Change where
  old : UInt32
  new : UInt32
deriving DecidableEq, Repr

namespace Change

/-- The bits that went from 0 to 1. -/
def rising (change : Change) : UInt32 := ~~~change.old &&& change.new

/-- The bits that went from 1 to 0. -/
def falling (change : Change) : UInt32 := change.old &&& ~~~change.new

end Change

namespace Bank

variable {table : List Register}

/-- The bank at power-on. -/
def initial (table : List Register) : Bank table :=
  let resets := Vector.ofFn fun index => (table.get index).reset
  ⟨resets, resets⟩

instance : Inhabited (Bank table) := ⟨initial table⟩

/-- The stored value of a register. -/
def get (bank : Bank table) (index : Fin table.length) : UInt32 := bank.values[index]

/-- Stores a value as it is. -/
def put (bank : Bank table) (index : Fin table.length) (value : UInt32) : Bank table :=
  { bank with values := bank.values.set index value index.isLt }

/-- Stores a value, cut to the width of the register. -/
def set (bank : Bank table) (index : Fin table.length) (value : UInt32) : Bank table :=
  bank.put index (value &&& (table.get index).width.mask)

/-- Sets bits of a register. -/
def setBits (bank : Bank table) (index : Fin table.length) (bits : UInt32) : Bank table :=
  bank.set index (bank.get index ||| bits)

/-- Clears bits of a register. -/
def clearBits (bank : Bank table) (index : Fin table.length) (bits : UInt32) : Bank table :=
  bank.set index (bank.get index &&& ~~~bits)

/-- The value that a register has after a reset. -/
def resetValue (bank : Bank table) (index : Fin table.length) : UInt32 := bank.resets[index]

/-- Gives a register another power-on value, cut to its width, and stores it at once. -/
def withReset (bank : Bank table) (index : Fin table.length) (value : UInt32) : Bank table :=
  let fitted := value &&& (table.get index).width.mask
  { values := bank.values.set index fitted index.isLt
    resets := bank.resets.set index fitted index.isLt }

/-- Gives every register its power-on value. -/
def reset (bank : Bank table) : Bank table := { bank with values := bank.resets }

/-- The index of the first register of a name. -/
def indexOf? (_ : Bank table) (name : String) : Option (Fin table.length) :=
  table.findFinIdx? fun register => register.name == name

/-- The stored values in table order. -/
def toList (bank : Bank table) : List UInt32 := bank.values.toList

/-- Stores one value per register, cut to its width, if there are exactly as many values as
registers. -/
def load? (bank : Bank table) (values : List UInt32) : Option (Bank table) :=
  if same : values.length = table.length then
    some { bank with
      values := Vector.ofFn fun index =>
        values.get (index.cast same.symm) &&& (table.get index).width.mask }
  else none

/-- A bus read of the selected lanes. A read that clears bits answers with the value from before
they are cleared. -/
def read (bank : Bank table) (selection : Selection table) : UInt32 × Bank table :=
  let value := bank.get selection.index
  match selection.register.access with
  | .writeOnly => (0, bank)
  | .clearOnRead bits =>
      (selection.lane.extract value,
        bank.put selection.index (value &&& ~~~(bits &&& selection.lane.mask)))
  | .readWrite | .readOnly | .writeOneToClear => (selection.lane.extract value, bank)

/-- A bus write to the selected lanes. -/
def write (bank : Bank table) (selection : Selection table) (value : UInt32) :
    Change × Bank table :=
  let old := bank.get selection.index
  let new := match selection.register.access with
    | .readWrite | .writeOnly => selection.lane.merge old value
    | .writeOneToClear => old &&& ~~~selection.lane.place value
    | .readOnly | .clearOnRead _ => old
  (⟨old, new⟩, bank.put selection.index new)

/-- A bus read at an address, if a register contains it. -/
def readAt? (bank : Bank table) (width : Width) (address : UInt32) :
    Option (UInt32 × Bank table) :=
  (Selection.find? table width address).map bank.read

/-- A bus write at an address, if a register contains it, with the index of the register. -/
def writeAt? (bank : Bank table) (width : Width) (address value : UInt32) :
    Option (Fin table.length × Change × Bank table) :=
  (Selection.find? table width address).map fun selection =>
    (selection.index, bank.write selection value)

@[simp]
theorem get_put_self (bank : Bank table) (index : Fin table.length) (value : UInt32) :
    (bank.put index value).get index = value :=
  Parts.getElem_set_self ..

theorem get_put_of_ne (bank : Bank table) {index other : Fin table.length}
    (distinct : index ≠ other) (value : UInt32) :
    (bank.put index value).get other = bank.get other :=
  Parts.getElem_set_of_ne _ value distinct

@[simp]
theorem get_reset (bank : Bank table) (index : Fin table.length) :
    bank.reset.get index = bank.resetValue index := rfl

@[simp]
theorem length_toList (bank : Bank table) : bank.toList.length = table.length := by
  simp [toList]

end Bank

end SocPeripherals
