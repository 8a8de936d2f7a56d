import SocPeripherals.Bus.Basic

/-!
# A recording bus

A bus with nothing behind it: it writes down every call, and answers reads and writes with
answers chosen in advance.
-/

namespace SocPeripherals

/-- The calls made so far, and the answers to the next ones. -/
structure Recorder where
  /-- The calls, latest first. -/
  recent : List BusCall := []
  readAnswer : Except BusError UInt32 := .ok 0
  writeAnswer : Except BusError Unit := .ok ()

namespace Recorder

/-- Writes down one more call. -/
def record (recorder : Recorder) (call : BusCall) : Recorder :=
  { recorder with recent := call :: recorder.recent }

/-- The calls made so far, oldest first. -/
def calls (recorder : Recorder) : List BusCall := recorder.recent.reverse

/-- Hands out the calls made so far and forgets them. -/
def takeCalls (recorder : Recorder) : List BusCall × Recorder :=
  (recorder.calls, { recorder with recent := [] })

instance : Bus Recorder where
  read recorder width address := (recorder.readAnswer, recorder.record (.read width address))
  write recorder width address value :=
    (recorder.writeAnswer, recorder.record (.write width address value))
  poll recorder := recorder.record .poll
  reset recorder := recorder.record .reset

end Recorder

end SocPeripherals
