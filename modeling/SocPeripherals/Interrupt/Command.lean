import SocPeripherals.Interrupt.Line

/-!
# Runs of the interrupt controller

What can be done to an interrupt controller is a command, and a run of commands is a list of
them.
-/

namespace SocPeripherals

namespace Interrupt

/-- What can be done to an interrupt controller. -/
inductive Command where
  | read (width : Width) (address : UInt32)
  | write (width : Width) (address value : UInt32)
  | poll
  | reset
  | post (source : UInt8)
  | clear (source : UInt8)
  | setEnabled (mask : UInt32)
  | restore (saved : Snapshot)
deriving DecidableEq, Repr

/-- What a command answers. -/
inductive Response where
  | done
  | value (value : UInt32)
  | accepted (answer : Except DeviceError Unit)

namespace Controller

/-- Carries out a command. A poll finds nothing to do: the controller keeps no deadlines. -/
def perform (controller : Controller) : Command → Traced Event (Response × Controller)
  | .read width address => do
      let (value, controller) ← controller.read width address
      return (.value value, controller)
  | .write width address value => do return (.done, ← controller.write width address value)
  | .poll => pure (.done, controller)
  | .reset => do return (.done, ← controller.reset)
  | .post source => do return (.done, ← controller.post source)
  | .clear source => do return (.done, ← controller.clear source)
  | .setEnabled mask => do return (.done, ← controller.setEnabled mask)
  | .restore saved => do
      let (answer, controller) ← controller.restore saved
      return (.accepted answer, controller)

/-- Carries out commands in order. -/
def performAll (controller : Controller) :
    List Command → Traced Event (List Response × Controller)
  | [] => pure ([], controller)
  | command :: rest => do
      let (response, controller) ← controller.perform command
      let (responses, controller) ← controller.performAll rest
      return (response :: responses, controller)

end Controller

end Interrupt

end SocPeripherals
