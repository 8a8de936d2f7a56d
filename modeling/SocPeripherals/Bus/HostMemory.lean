import SocPeripherals.Bus.Ram
import SocPeripherals.Bus.Recorder

/-!
# Host memories

The address space that the direct memory access channels move data in is either memory or a
recording bus.
-/

namespace SocPeripherals

/-- What stands behind the host's address space. -/
inductive HostMemory where
  | ram (ram : Ram)
  | recorder (recorder : Recorder)

namespace HostMemory

/-- The memory, if there is one. -/
def ram? : HostMemory → Option Ram
  | ram contents => some contents
  | recorder _ => none

/-- Hands out the calls a recording bus has written down, none for a memory. -/
def takeCalls : HostMemory → List BusCall × HostMemory
  | ram contents => ([], ram contents)
  | recorder bus => let (calls, rest) := bus.takeCalls; (calls, recorder rest)

instance : Bus HostMemory where
  read
    | ram contents, width, address =>
        let (answer, after) := Bus.read contents width address
        (answer, ram after)
    | recorder bus, width, address =>
        let (answer, after) := Bus.read bus width address
        (answer, recorder after)
  write
    | ram contents, width, address, value =>
        let (answer, after) := Bus.write contents width address value
        (answer, ram after)
    | recorder bus, width, address, value =>
        let (answer, after) := Bus.write bus width address value
        (answer, recorder after)
  poll
    | ram contents => ram (Bus.poll contents)
    | recorder bus => recorder (Bus.poll bus)
  reset
    | ram contents => ram (Bus.reset contents)
    | recorder bus => recorder (Bus.reset bus)

end HostMemory

end SocPeripherals
