import SocPeripherals.Event
import SocPeripherals.Register.Access

/-!
# Driving the interrupt line

Every operation that changes a mask drives the line anew: the line is high as long as some
source is both pending and enabled, and a change of its level is an event, at which the
controller already shows the new masks and level.
-/

namespace SocPeripherals

namespace Interrupt

/-- What the controller saves: its register values and the level of its line. -/
structure Snapshot where
  regs : List UInt32
  line : Bool
deriving DecidableEq, Repr

/-- A source of the controller, as handed to the device that posts it. -/
structure Source where
  number : UInt8
  within : number < sourceCount

/-- The source of a number. -/
def source (number : UInt8) : Except Fault Source :=
  if within : number < sourceCount then .ok ⟨number, within⟩ else .error (.sourceOutOfRange number)

namespace Controller

/-- The controller with its line at the level that the masks call for. -/
def driven (controller : Controller) : Controller :=
  { controller with line := controller.demands }

/-- Gives the line the level that the masks call for. -/
def drive (controller : Controller) : Traced Event Controller :=
  if controller.line = controller.demands then pure controller
  else
    ⟨controller.driven,
      [.note (.lineChanged controller.demands), .line controller.demands controller.driven]⟩

@[simp]
theorem value_drive (controller : Controller) : controller.drive.value = controller.driven := by
  obtain ⟨bank, line⟩ := controller
  unfold drive
  split
  next same => simpa [driven] using same
  next => rfl

/-- Makes a source pending. -/
def post (controller : Controller) (source : UInt8) : Traced Event Controller :=
  { controller with bank := controller.bank.setBits pendingIndex (sourceBit source) }.drive

/-- Makes a source not pending. -/
def clear (controller : Controller) (source : UInt8) : Traced Event Controller :=
  { controller with bank := controller.bank.clearBits pendingIndex (sourceBit source) }.drive

/-- Replaces the mask of enabled sources. -/
def setEnabled (controller : Controller) (mask : UInt32) : Traced Event Controller :=
  { controller with bank := controller.bank.set enableIndex mask }.drive

/-- The vector register as the bus sees it. -/
def vectorWord (controller : Controller) : UInt32 :=
  (controller.bank.get vectorIndex &&& ~~~vectorBits) ||| controller.vector.toUInt32

/-- A bus read. -/
def read (controller : Controller) (width : Width) (address : UInt32) :
    Traced Event (UInt32 × Controller) := do
  match ← Selection.noted .note "intc" registers width address with
  | none => return (0, controller)
  | some selection =>
      if selection.index = vectorIndex then
        return (selection.lane.extract controller.vectorWord, controller)
      else
        let (value, bank) := controller.bank.read selection
        return (value, { controller with bank })

/-- A bus write. Writing the lowest byte of the vector register acknowledges a source: the
source named there is no longer pending. -/
def write (controller : Controller) (width : Width) (address value : UInt32) :
    Traced Event Controller := do
  match ← Selection.noted .note "intc" registers width address with
  | none => return controller
  | some selection =>
      let (change, bank) := controller.bank.write selection value
      if selection.index = vectorIndex then
        let latched := { controller with bank := bank.set vectorIndex (change.new &&& latchBits) }
        if selection.lane.touches vectorBits then
          let source := (selection.lane.place value &&& acknowledgeBits).toUInt8
          Traced.signal (.note (.acknowledged source))
          latched.clear source
        else return latched
      else Controller.drive { controller with bank }

/-- Returns the registers to their power-on values. -/
def reset (controller : Controller) : Traced Event Controller :=
  { controller with bank := controller.bank.reset }.drive

/-- Saves the controller. -/
def snapshot (controller : Controller) : Snapshot :=
  { regs := controller.bank.toList, line := controller.line }

/-- Takes over saved registers. The line follows them, whatever level was saved. -/
def restore (controller : Controller) (saved : Snapshot) :
    Traced Event (Except DeviceError Unit × Controller) :=
  match controller.bank.load? saved.regs with
  | none => pure (.error (.snapshotMismatch "intc registers"), controller)
  | some bank => do
      let restored ← { controller with bank }.drive
      return (.ok (), restored)

/-- What the surroundings see of a device's signal, and the controller after it. -/
def hear (controller : Controller) : Signal → Traced Event Controller
  | .note note => ⟨controller, [.note note]⟩
  | .interrupt source => controller.post source
  | .transmit uart byte => ⟨controller, [.transmit uart byte]⟩
  | .host call => ⟨controller, [.host call]⟩

/-- What the surroundings see of a run of signals, and the controller after them. -/
def hearAll (controller : Controller) : List Signal → Traced Event Controller
  | [] => pure controller
  | signal :: rest => do (← controller.hear signal).hearAll rest

end Controller

end Interrupt

end SocPeripherals
