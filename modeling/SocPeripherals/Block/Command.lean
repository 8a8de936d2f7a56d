import SocPeripherals.Block.Host
import SocPeripherals.Block.Schedule
import SocPeripherals.Block.Snapshot
import SocPeripherals.Block.Window

/-!
# Runs of the block

What can be done to a block from outside is a command, and a run of commands is a list of them.
-/

namespace SocPeripherals

namespace Block

/-- What can be done to a block. -/
inductive Command where
  | read (width : Width) (address : UInt32)
  | write (width : Width) (address value : UInt32)
  | poll
  | reset
  | increment (cycles : UInt64)
  | tick (cycles : UInt64)
  | advance (cycles : UInt64)
  | raiseInterrupt (source : UInt8)
  | receive (uart : Nat) (byte : UInt8)
  | setLine (uart : Nat) (high : Bool)
  | startTransfer (channel : Nat) (source target count control : UInt32)
  /-- Places a deadline of somebody else on the block's clock. -/
  | placeDeadline (cycles : UInt64)
  | restore (saved : Snapshot)
deriving DecidableEq, Repr

/-- What a command answers. -/
inductive Response where
  | done
  | loaded (answer : Except BusError UInt32)
  | stored (answer : Except BusError Unit)
  /-- Whether a deadline was reached. -/
  | reached (reached : Bool)
  | accepted (answer : Except DeviceError Unit)

variable {μ : Type} [Bus μ]

/-- Carries out a command. -/
def perform (block : Block μ) : Command → Run Event (Response × Block μ)
  | .read width address => do
      let (answer, block) ← block.read width address
      return (.loaded answer, block)
  | .write width address value => do
      let (answer, block) ← block.write width address value
      return (.stored answer, block)
  | .poll => do return (.done, ← block.poll)
  | .reset => do return (.done, ← block.reset)
  | .increment cycles => do
      let (reached, block) ← block.increment cycles
      return (.reached reached, block)
  | .tick cycles => do
      let (reached, block) ← block.tick cycles
      return (.reached reached, block)
  | .advance cycles => do
      let (reached, block) ← block.advance cycles
      return (.reached reached, block)
  | .raiseInterrupt source => do return (.done, ← block.raiseInterrupt source)
  | .receive uart byte => do
      let (answer, block) ← block.receive uart byte
      return (.accepted answer, block)
  | .setLine uart high => do
      let (answer, block) ← block.setLine uart high
      return (.accepted answer, block)
  | .startTransfer channel source target count control => do
      let (answer, block) ← block.startTransfer channel source target count control
      return (.accepted answer, block)
  | .placeDeadline cycles => do
      let (_, clock) ← block.clock.scheduleIn cycles
      return (.done, { block with clock })
  | .restore saved => do
      let (answer, block) ← block.restore saved
      return (.accepted answer, block)

/-- Carries out commands in order. -/
def performAll (block : Block μ) : List Command → Run Event (List Response × Block μ)
  | [] => pure ([], block)
  | command :: rest => do
      let (response, block) ← block.perform command
      let (responses, block) ← block.performAll rest
      return (response :: responses, block)

end Block

end SocPeripherals
