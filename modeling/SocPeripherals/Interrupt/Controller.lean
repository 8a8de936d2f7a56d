import SocPeripherals.Register.Bank

/-!
# The interrupt controller's state

The controller keeps a pending bit and an enable bit for each of its 32 sources and drives one
line towards the processor. Its vector register shows the lowest source that is both pending
and enabled, counted from 1, and 0 while there is none.
-/

namespace SocPeripherals

namespace Interrupt

/-- How many sources there are. -/
def sourceCount : UInt8 := 32

/-- The sources of the timers, in order. -/
def timerSources : Vector UInt8 4 := #v[0, 1, 9, 10]

/-- The sources of the serial interfaces, in order. -/
def uartSources : Vector UInt8 2 := #v[4, 5]

/-- The sources of the direct memory access channels, in order. -/
def dmaSources : Vector UInt8 2 := #v[7, 8]

/-- The source of the sound unit. -/
def soundSource : UInt8 := 2

/-- The source of the display's vertical blank. -/
def blankSource : UInt8 := 24

/-- The bit of a source in the masks; a number past the last source has none. -/
def sourceBit (source : UInt8) : UInt32 :=
  if source < sourceCount then 1 <<< source.toUInt32 else 0

/-- The position of the lowest bit that is set. -/
def lowestBit? (mask : UInt32) : Option (Fin 32) :=
  (List.finRange 32).find? fun position => mask.toNat.testBit position.val

/-- The controller's registers. -/
def registers : List Register :=
  [{ name := "INTVEC", offset := 0x0, width := .word, reset := 0, access := .readWrite },
   { name := "INTEN", offset := 0x4, width := .word, reset := 0, access := .readWrite },
   { name := "INTST", offset := 0x8, width := .word, reset := 0, access := .writeOneToClear }]

/-- The vector register. -/
def vectorIndex : Fin registers.length := ⟨0, by decide⟩

/-- The enable register. -/
def enableIndex : Fin registers.length := ⟨1, by decide⟩

/-- The pending register. -/
def pendingIndex : Fin registers.length := ⟨2, by decide⟩

/-- The bits of the vector register that show the vector. -/
def vectorBits : UInt32 := 0xff

/-- The bits of the vector register that keep what was written. -/
def latchBits : UInt32 := 0xff00

/-- The bits of a written value that name the source to acknowledge. -/
def acknowledgeBits : UInt32 := 0x1f

/-- The registers, and the level of the line towards the processor. -/
structure Controller where
  bank : Bank registers := .initial registers
  line : Bool := false
deriving DecidableEq

namespace Controller

/-- The sources that have been posted and not cleared. -/
def pending (controller : Controller) : UInt32 := controller.bank.get pendingIndex

/-- The sources that may drive the line. -/
def enabled (controller : Controller) : UInt32 := controller.bank.get enableIndex

/-- The sources that ask for the processor. -/
def active (controller : Controller) : UInt32 := controller.pending &&& controller.enabled

/-- Some source asks for the processor. -/
def demands (controller : Controller) : Bool := controller.active != 0

/-- One more than the lowest source that asks for the processor, or 0. -/
def vector (controller : Controller) : UInt8 :=
  match lowestBit? controller.active with
  | none => 0
  | some source => UInt8.ofNat (source.val + 1)

end Controller

end Interrupt

end SocPeripherals
