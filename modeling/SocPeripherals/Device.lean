import SocPeripherals.Clock
import SocPeripherals.Event
import SocPeripherals.Interrupt.Line

/-!
# Devices

A device lives on a clock, on which it places its deadlines, and signals to what is around it.
The surroundings relay its signals through an interrupt controller.
-/

namespace SocPeripherals

/-- What a bus and a clock ask of a device. -/
class Device (δ : Type) where
  /-- A bus read. -/
  read : δ → Clock → Width → UInt32 → Run Signal (UInt32 × δ × Clock)
  /-- A bus write. -/
  write : δ → Clock → Width → UInt32 → UInt32 → Run Signal (Unit × δ × Clock)
  /-- Does what has become due. -/
  poll : δ → Clock → Run Signal (Unit × δ × Clock)
  /-- Returns the device to its power-on state. -/
  reset : δ → Clock → Run Signal (Unit × δ × Clock)

namespace Interrupt.Controller

/-- What the surroundings see of a device at work, and the controller after it. -/
def relay {α : Type} (controller : Controller) (run : Run Signal α) :
    Run Event (α × Controller) :=
  let heard := controller.hearAll run.signals
  ⟨run.outcome.map fun answer => (answer, heard.value), heard.signals⟩

end Interrupt.Controller

end SocPeripherals
