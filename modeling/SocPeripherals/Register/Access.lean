import SocPeripherals.Note
import SocPeripherals.Register.Basic
import SocPeripherals.Run

/-!
# Selecting a register of a device

Devices note the accesses that select no register of theirs, and those that do not cover the
selected register exactly.
-/

namespace SocPeripherals

namespace Selection

/-- What a device remarks about an access. -/
def remark? (device : String) (width : Width) (address : UInt32) {table : List Register} :
    Option (Selection table) → Option Note
  | none => some (.noRegister device address)
  | some selection =>
      if selection.lane.exact then none else some (.partialAccess device address width)

/-- Selects the register of an access, with a note where there is something to remark. -/
def noted {ε : Type} (note : Note → ε) (device : String) (table : List Register) (width : Width)
    (address : UInt32) : Traced ε (Option (Selection table)) :=
  let selection := find? table width address
  ⟨selection, (remark? device width address selection).toList.map note⟩

end Selection

end SocPeripherals
