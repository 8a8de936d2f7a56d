import SocPeripherals.Clock
import SocPeripherals.Event

/-!
# Memory transfers

A transfer copies units of one width through the host's memory, a read followed by a write for
each unit. The source and the target move on by a unit's bytes, or stay where they are. The
first access that the memory refuses ends the transfer.
-/

namespace SocPeripherals

/-- A transfer under way. -/
structure Transfer where
  unit : Width
  /-- How far the source moves on with each unit. -/
  sourceStep : UInt32
  /-- How far the target moves on with each unit. -/
  targetStep : UInt32
  /-- How many units are to be moved. -/
  total : UInt32
  /-- How many units have been moved. -/
  moved : UInt32
  /-- The cycle at which the transfer began. -/
  startedAt : UInt64
  /-- The deadline at which the last unit is due. -/
  due : Option Deadline
deriving DecidableEq, Repr

namespace Transfer

/-- How far a transfer has come. -/
structure Position where
  source : UInt32
  target : UInt32
  /-- The units still to be moved. -/
  left : UInt32
  /-- The units moved. -/
  moved : UInt32
deriving DecidableEq, Repr

/-- Where a transfer stopped, and why if it could not go on. -/
structure Progress (μ : Type) where
  position : Position
  memory : μ
  refusal : Option BusError
  /-- The memory accesses made, latest first. -/
  calls : List BusCall

variable {μ : Type} [Bus μ]

/-- The position after one more unit. -/
def advance (transfer : Transfer) (position : Position) : Position :=
  { source := position.source + transfer.sourceStep
    target := position.target + transfer.targetStep
    left := position.left - 1
    moved := position.moved + 1 }

/-- Moves one unit. -/
def moveUnit (transfer : Transfer) (position : Position) (memory : μ) (calls : List BusCall) :
    Progress μ :=
  let (answer, memory) := Bus.read memory transfer.unit position.source
  let calls := .read transfer.unit position.source :: calls
  match answer with
  | .error refusal => { position, memory, refusal := some refusal, calls }
  | .ok value =>
      let (answer, memory) := Bus.write memory transfer.unit position.target value
      let calls := .write transfer.unit position.target value :: calls
      match answer with
      | .error refusal => { position, memory, refusal := some refusal, calls }
      | .ok () => { position := transfer.advance position, memory, refusal := none, calls }

/-- Moves units until a number of them has been moved or the memory refuses an access. -/
def moveUnits (transfer : Transfer) : Nat → Position → μ → List BusCall → Progress μ
  | 0, position, memory, calls => { position, memory, refusal := none, calls }
  | count + 1, position, memory, calls =>
      let progress := transfer.moveUnit position memory calls
      match progress.refusal with
      | some _ => progress
      | none => transfer.moveUnits count progress.position progress.memory progress.calls

/-- How many more units are moved until `target` of them have been, or all. -/
def outstanding (transfer : Transfer) (target : UInt32) : Nat :=
  (min target transfer.total).toNat - transfer.moved.toNat

end Transfer

end SocPeripherals
