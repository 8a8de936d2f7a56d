import SocPeripherals.Interrupt.Controller
import SocPeripherals.Note
import SocPeripherals.Run

/-!
# Signals and events

A device signals to the block around it: it asks for an interrupt, sends a byte, uses the
host's memory or leaves a note. The block passes requests for interrupts on to the interrupt
controller; what its surroundings see are events, in which the interrupt line stands in place
of the requests.
-/

namespace SocPeripherals

/-- What a device tells the block around it. -/
inductive Signal where
  | note (note : Note)
  /-- A request for the interrupt of a source. -/
  | interrupt (source : UInt8)
  /-- A byte sent by a serial interface. -/
  | transmit (uart : Nat) (byte : UInt8)
  /-- An access to the host's memory. -/
  | host (call : BusCall)
deriving DecidableEq, Repr

/-- What the surroundings of the block see. -/
inductive Event where
  | note (note : Note)
  /-- A new level of the interrupt line, with the controller as it is at that moment. -/
  | line (high : Bool) (seen : Interrupt.Controller)
  /-- A byte sent by a serial interface. -/
  | transmit (uart : Nat) (byte : UInt8)
  /-- An access to the host's memory. -/
  | host (call : BusCall)
deriving DecidableEq

namespace Event

/-- The note, if the event is one. -/
def note? : Event → Option Note
  | note remark => some remark
  | _ => none

/-- The call of the host's memory, if the event is one. -/
def host? : Event → Option BusCall
  | host call => some call
  | _ => none

/-- How a listener for the interrupt line describes itself. -/
def lineListenerText : String := "IrqLineCb(\"<unknown closure>\")"

/-- How a listener for sent bytes describes itself. -/
def transmitListenerText : String := "UartTxCb(\"<unknown closure>\")"

end Event

end SocPeripherals
