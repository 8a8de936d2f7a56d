import SocPeripherals.Agenda

/-!
# Clocks side by side and the deadlines held from them

Who places a deadline keeps what the clock issued, and with it asks whether the deadline has been
reached, asks for the cycles left, or cancels it. A desk has clocks, told apart by their numbers,
and slots for what they issued; any clock can be asked about any slot. A clock checks its rules
before it changes anything, so that a command that breaks one leaves the clocks as they were.
-/

namespace SocPeripherals

/-- Clocks by their numbers, and slots that may each hold a deadline. -/
structure Desk where
  clocks : Nat → Agenda
  slots : Nat → Option Deadline

namespace Desk

/-- Clocks that show any first cycles and have issued nothing yet. -/
def starting (counters : Nat → UInt64) : Desk where
  clocks number := { identity := number, now := counters number }
  slots _ := none

/-- The desk with another state of a clock. -/
def withClock (desk : Desk) (number : Nat) (clock : Agenda) : Desk :=
  { desk with clocks := fun other => if other = number then clock else desk.clocks other }

/-- The desk with something else in a slot. -/
def withSlot (desk : Desk) (slot : Nat) (held : Option Deadline) : Desk :=
  { desk with slots := fun other => if other = slot then held else desk.slots other }

/-- What can be done with the clocks and the deadlines held from them. -/
inductive Command where
  /-- Places a deadline and holds it in the slot; what was in the slot is lost, but not
  cancelled. -/
  | scheduleAt (clock slot : Nat) (time : UInt64)
  | scheduleIn (clock slot : Nat) (cycles : UInt64)
  /-- Asks whether the deadline has been reached, and lets go of it if so. -/
  | claim (clock slot : Nat)
  | remaining (clock slot : Nat)
  /-- Gives the deadline back. -/
  | cancel (clock slot : Nat)
  | increment (clock : Nat) (cycles : UInt64)
deriving DecidableEq, Repr

/-- What a command answers. -/
inductive Answer where
  | placed
  /-- Whether the deadline has been reached. -/
  | claimed (reached : Bool)
  /-- The cycles left, if there is a deadline in the slot. -/
  | remaining (cycles : Option UInt64)
  /-- Whether there was a deadline to be cancelled. -/
  | cancelled (held : Bool)
  /-- Whether some deadline of the clock was reached. -/
  | moved (reached : Bool)
deriving DecidableEq, Repr

/-- Puts back a clock that has done something. One that has refused is as it was. -/
def settle {α : Type} (desk : Desk) (clock : Nat) (answer : α → Answer) :
    Except Fault (α × Agenda) → Except Fault Answer × Desk
  | .ok (value, after) => (.ok (answer value), desk.withClock clock after)
  | .error fault => (.error fault, desk)

/-- Holds what a clock has issued. -/
def keep (desk : Desk) (clock slot : Nat) :
    Except Fault (Deadline × Agenda) → Except Fault Answer × Desk
  | .ok (deadline, after) => (.ok .placed, (desk.withClock clock after).withSlot slot deadline)
  | .error fault => (.error fault, desk)

/-- Carries out a command. What is left behind is told also of a command that breaks a rule. -/
def perform (desk : Desk) : Command → Except Fault Answer × Desk
  | .scheduleAt clock slot time => desk.keep clock slot ((desk.clocks clock).scheduleAt time)
  | .scheduleIn clock slot cycles => desk.keep clock slot ((desk.clocks clock).scheduleIn cycles)
  | .claim clock slot =>
      let (reached, held) := (desk.clocks clock).claim (desk.slots slot)
      (.ok (.claimed reached), desk.withSlot slot held)
  | .remaining clock slot =>
      (.ok (.remaining ((desk.slots slot).map (desk.clocks clock).remaining)), desk)
  | .cancel clock slot =>
      match desk.slots slot with
      | none => (.ok (.cancelled false), desk)
      | some deadline =>
          (desk.withSlot slot none).settle clock .cancelled
            (((desk.clocks clock).cancel deadline).map fun after => (true, after))
  | .increment clock cycles =>
      desk.settle clock .moved ((desk.clocks clock).increment cycles)

/-- Carries out commands one after another, also after one that breaks a rule. -/
def performAll (desk : Desk) (commands : List Command) : Desk :=
  commands.foldl (fun desk command => (desk.perform command).2) desk

end Desk

end SocPeripherals
