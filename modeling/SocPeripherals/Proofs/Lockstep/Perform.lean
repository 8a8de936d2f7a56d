import SocPeripherals.Proofs.Block.Act
import SocPeripherals.Proofs.Block.Hop
import SocPeripherals.Proofs.Lockstep.Block

/-!
# Commands in lockstep

Blocks in lockstep do the same on one command. A command that leaves the counters alone asks
nothing more of the clocks; any other asks that they are moved alike and wait equally long.
-/

namespace SocPeripherals

/-- Clocks in lockstep reach deadlines on the same moves, and wait for the next one equally
long. -/
structure Clock.Lockstep.Marches (lockstep : Lockstep) : Prop where
  increment {clock other : Clock} : lockstep.clocks clock other → ∀ cycles,
    Run.Matches (ε := Event)
      (fun (reached, clock) (reachedOther, other) =>
        reached = reachedOther ∧ lockstep.clocks clock other)
      (liftM (clock.increment cycles)) (liftM (other.increment cycles))
  nextDistance_eq {clock other : Clock} : lockstep.clocks clock other →
    other.nextDistance = clock.nextDistance

namespace Block

variable {μ : Type} {lockstep : Clock.Lockstep} {idle : Timer.Latch → Timer.Latch → Prop}
  {block twin : Block μ}

/-- The answers are put in other words. -/
theorem answer_alike {α β : Type} (word : α → β) {run runOther : Run Event (α × Block μ)}
    (matched : run.Matches (Same lockstep idle) runOther) :
    Run.Matches (Same lockstep idle)
      (do
        let (answer, block) ← run
        return (word answer, block))
      (do
        let (answer, block) ← runOther
        return (word answer, block)) :=
  .bind matched fun _ _ same => .pure ⟨congrArg word same.1, same.2⟩

/-- A command that answers only when it is done. -/
theorem done_alike {run runOther : Run Event (Block μ)}
    (matched : run.Matches (Alike lockstep idle) runOther) :
    Run.Matches (Same lockstep idle) (do return (Response.done, ← run))
      (do return (Response.done, ← runOther)) :=
  .bind matched fun _ _ alike => .pure ⟨rfl, alike⟩

variable [Bus μ]

theorem perform_alike_of_isLocal (reflexive : ∀ latch, idle latch latch)
    (alike : Alike lockstep idle block twin) {command : Command} (at_once : command.IsLocal) :
    (block.perform command).Matches (Same lockstep idle) (twin.perform command) := by
  cases command with
  | read width address => exact answer_alike Response.loaded (read_alike alike width address)
  | write width address value =>
      exact answer_alike Response.stored (write_alike reflexive alike width address value)
  | poll => exact done_alike (poll_alike reflexive alike)
  | reset => exact done_alike (reset_alike reflexive alike)
  | raiseInterrupt source => exact done_alike (.ofTraced (raiseInterrupt_alike alike source))
  | receive uart byte => exact answer_alike Response.accepted (receive_alike alike uart byte)
  | setLine uart high => exact answer_alike Response.accepted (setLine_alike alike uart high)
  | startTransfer channel source target count control =>
      exact answer_alike Response.accepted
        (startTransfer_alike alike channel source target count control)
  | restore saved =>
      exact answer_alike Response.accepted (restore_alike reflexive alike (.refl saved))
  | increment | tick | advance | placeDeadline => exact at_once.elim

theorem advance_alike (marches : lockstep.Marches) (reflexive : ∀ latch, idle latch latch)
    (alike : Alike lockstep idle block twin) (cycles : UInt64) :
    (block.advance cycles).Matches (Same lockstep idle) (twin.advance cycles) := by
  have waits {block twin : Block μ} (alike : Alike lockstep idle block twin) :
      twin.clock.nextDistance = block.clock.nextDistance :=
    marches.nextDistance_eq alike.clocks
  have ticks {block twin : Block μ} (alike : Alike lockstep idle block twin) (cycles : UInt64) :
      (block.tick cycles).Matches (Same lockstep idle) (twin.tick cycles) :=
    tick_alike reflexive alike (marches.increment alike.clocks cycles)
  exact hop_matches waits ticks _ alike cycles false

/-- Somebody else places a deadline on both clocks. -/
theorem placeDeadline_alike (alike : Alike lockstep idle block twin) (cycles : UInt64) :
    (block.perform (.placeDeadline cycles)).Matches (Same lockstep idle)
      (twin.perform (.placeDeadline cycles)) := by
  refine .bind (Clock.Lockstep.scheduleIn alike.clocks cycles) ?_
  rintro ⟨deadline, clock⟩ ⟨paired, other⟩ ⟨_, clocks⟩
  exact .pure ⟨rfl, { alike with clocks := clocks }⟩

/-- Blocks whose clocks march in lockstep do the same on every command. -/
theorem perform_alike (marches : lockstep.Marches) (reflexive : ∀ latch, idle latch latch)
    (alike : Alike lockstep idle block twin) (command : Command) :
    (block.perform command).Matches (Same lockstep idle) (twin.perform command) := by
  by_cases at_once : command.IsLocal
  · exact perform_alike_of_isLocal reflexive alike at_once
  · cases command with
    | increment cycles =>
        exact answer_alike Response.reached
          (increment_alike alike (marches.increment alike.clocks cycles))
    | tick cycles =>
        exact answer_alike Response.reached
          (tick_alike reflexive alike (marches.increment alike.clocks cycles))
    | advance cycles =>
        exact answer_alike Response.reached (advance_alike marches reflexive alike cycles)
    | placeDeadline cycles => exact placeDeadline_alike alike cycles
    | _ => exact absurd trivial at_once

end Block

end SocPeripherals
