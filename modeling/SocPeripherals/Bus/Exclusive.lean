import SocPeripherals.Bus.Basic
import SocPeripherals.Fault

/-!
# Shared memory with one user at a time

A bus reached through several handles lets one user in at a time. While one user holds it,
every access through another handle is a fault; otherwise the accesses are those of the bus.
-/

namespace SocPeripherals

/-- A bus, and whether one of its users is inside it. -/
structure Exclusive (μ : Type) where
  contents : μ
  held : Bool := false

namespace Exclusive

variable {μ : Type} {α : Type}

/-- Uses the bus for one access, unless it is held. -/
def use (shared : Exclusive μ) (access : μ → α × μ) : Except Fault (α × Exclusive μ) :=
  if shared.held then .error .memoryHeld
  else
    let (answer, contents) := access shared.contents
    .ok (answer, { shared with contents })

variable [Bus μ]

/-- Reads through a handle. -/
def read (shared : Exclusive μ) (width : Width) (address : UInt32) :
    Except Fault (Except BusError UInt32 × Exclusive μ) :=
  shared.use fun bus => Bus.read bus width address

/-- Writes through a handle. -/
def write (shared : Exclusive μ) (width : Width) (address value : UInt32) :
    Except Fault (Except BusError Unit × Exclusive μ) :=
  shared.use fun bus => Bus.write bus width address value

/-- Polls through a handle. -/
def poll (shared : Exclusive μ) : Except Fault (Unit × Exclusive μ) :=
  shared.use fun bus => ((), Bus.poll bus)

/-- Resets through a handle. -/
def reset (shared : Exclusive μ) : Except Fault (Unit × Exclusive μ) :=
  shared.use fun bus => ((), Bus.reset bus)

end Exclusive

end SocPeripherals
