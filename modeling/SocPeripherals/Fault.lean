/-!
# Faults

A fault ends an operation for good: the caller broke a rule that the operation relies on, or a
number left the range in which the operation has a meaning. It is not an answer of the modelled
hardware, which reports its own failures as bus errors and device errors.
-/

namespace SocPeripherals

/-- The reasons for which an operation gives up without a result. -/
inductive Fault where
  /-- An index lies past the last of `length` items. -/
  | indexOutOfBounds (length index : Nat)
  /-- The byte count of the invalid width was asked for. -/
  | widthWithoutValue
  /-- A shared memory was accessed while another user held it. -/
  | memoryHeld
  /-- The clock was moved by a step it cannot tell from a step backwards. -/
  | stepTooLong
  /-- A deadline was placed so far ahead that it cannot be told from one in the past. -/
  | deadlineTooFar
  /-- A deadline was cancelled on a clock that did not issue it. -/
  | foreignDeadline
  /-- The interrupt controller has no such source. -/
  | sourceOutOfRange (source : UInt8)
  /-- The product of two numbers does not fit its word. -/
  | productOverflow
  /-- A word was shifted up by its whole width or more. -/
  | shiftUpOverflow
  /-- A word was shifted down by its whole width or more. -/
  | shiftDownOverflow
  /-- More bytes were to be kept than a store has room for. -/
  | storeTooLarge
deriving DecidableEq, Repr

/-- The fault's written description. -/
def Fault.message : Fault → String
  | indexOutOfBounds length index =>
      s!"index out of bounds: the len is {length} but the index is {index}"
  | widthWithoutValue => "BusSize::Invalid has no value"
  | memoryHeld => "already borrowed"
  | stepTooLong =>
      "Cannot increment the current time by more than 9223372036854775807 clock cycles."
  | deadlineTooFar =>
      "Cannot schedule a timer action more than 9223372036854775807 clock cycles from now."
  | foreignDeadline => "Supplied action was not created by this timer."
  | sourceOutOfRange source => s!"irq source {source} out of range"
  | productOverflow => "attempt to multiply with overflow"
  | shiftUpOverflow => "attempt to shift left with overflow"
  | shiftDownOverflow => "attempt to shift right with overflow"
  | storeTooLarge => "capacity overflow"

end SocPeripherals
