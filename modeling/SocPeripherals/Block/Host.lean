import SocPeripherals.Block.Basic

/-!
# The host's side of the block

What the surroundings of the block do to it apart from bus accesses: they raise interrupts,
deliver bytes and levels to the serial interfaces, and begin memory transfers.
-/

namespace SocPeripherals

namespace Block

variable {μ : Type}

/-- Makes an interrupt source pending. -/
def raiseInterrupt (block : Block μ) (source : UInt8) : Traced Event (Block μ) := do
  let ((), block) ← block.onController fun controller => do return ((), ← controller.post source)
  return block

/-- Lets the serial interface of a number act, if there is one. -/
def onUartAt (block : Block μ) (number : Nat)
    (action : Uart → Clock → Run Signal (Unit × Uart × Clock)) :
    Run Event (Except DeviceError Unit × Block μ) := do
  match uartIndex? number with
  | none => return (.error (.invalidState "no such uart"), block)
  | some index =>
      let ((), block) ← block.onUart index action
      return (.ok (), block)

/-- Delivers a byte to a serial interface. -/
def receive (block : Block μ) (number : Nat) (byte : UInt8) :
    Run Event (Except DeviceError Unit × Block μ) :=
  block.onUartAt number fun uart clock => do return ((), ← uart.receive byte, clock)

/-- Gives the receive line of a serial interface a level. -/
def setLine (block : Block μ) (number : Nat) (high : Bool) :
    Run Event (Except DeviceError Unit × Block μ) :=
  block.onUartAt number fun uart clock => do return ((), ← uart.setLine clock high)

/-- Begins a memory transfer. -/
def startTransfer [Bus μ] (block : Block μ) (channel : Nat)
    (source target count control : UInt32) : Run Event (Except DeviceError Unit × Block μ) :=
  block.onDma fun attached clock =>
    attached.start clock channel source target count control

end Block

end SocPeripherals
