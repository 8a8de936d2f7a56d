import SocPeripherals.Proofs.Block.Restored
import SocPeripherals.Proofs.Consistency.Devices
import SocPeripherals.Proofs.Isolation.Devices
import SocPeripherals.Proofs.Signals

/-!
# The life of a timer

A timer runs just while the enable bit of its control register is set, and just while it holds a
deadline: accesses, polls, resets and restored snapshots in any order keep the two together. Its
interrupt is asked for by a poll that lets go of a deadline that has passed, so nothing asks for it
while the enable bit is clear, not even a deadline that had passed before the bit was cleared.
-/

namespace SocPeripherals

namespace Timer

/-- What can be done to a timer. -/
inductive Command where
  | read (width : Width) (address : UInt32)
  | write (width : Width) (address value : UInt32)
  | poll
  | reset
deriving DecidableEq, Repr

/-- Carries out a command. -/
def perform (timer : Timer) (clock : Clock) : Command → Run Signal (Timer × Clock)
  | .read width address => do
      let (_, timer) ← timer.read clock width address
      return (timer, clock)
  | .write width address value => timer.write clock width address value
  | .poll => timer.poll clock
  | .reset => pure (timer.reset clock)

/-- The enable bit of the control register is set. -/
def isEnabled (timer : Timer) : Bool := timer.bank.get controlIndex &&& enableBit != 0

/-- What has been signalled since the enable bit was last set, after more was signalled. -/
def idled (timer : Timer) (idle signals : List Signal) : List Signal :=
  if timer.isEnabled then [] else idle ++ signals

/-- What can become of a timer since power-on, with what it has signalled in the operations since
the enable bit was last found set. The clock moves on at will, whether or not polls follow, and
others may use it as well. A snapshot may come from any other timer and clock. -/
inductive History : Timer → Clock → List Signal → Prop where
  | start (index : Nat) (source : UInt8) (clock : Clock) : History { index, source } clock []
  | perform {timer after : Timer} {clock later : Clock} {idle : List Signal}
      (history : History timer clock idle) (command : Command)
      (done : (timer.perform clock command).outcome = .ok (after, later)) :
      History after later (timer.idled idle (timer.perform clock command).signals)
  | restore {timer other after : Timer} {clock otherClock later : Clock}
      {idle otherIdle : List Signal} {answer : Except DeviceError Unit}
      (history : History timer clock idle) (saved : History other otherClock otherIdle)
      (done : (timer.restore clock (other.snapshot otherClock)).outcome
        = .ok (answer, after, later)) :
      History after later
        (timer.idled idle (timer.restore clock (other.snapshot otherClock)).signals)
  | increment {timer : Timer} {clock next : Clock} {idle : List Signal}
      (history : History timer clock idle) (cycles : UInt64) {reached : Bool}
      (moved : clock.increment cycles = .ok (reached, next)) : History timer next idle
  | share {timer : Timer} {clock next : Clock} {idle : List Signal}
      (history : History timer clock idle) (leaves : clock.Leaves timer.held next) :
      History timer next idle

variable {timer after : Timer} {clock later : Clock} {idle : List Signal}

theorem isEnabled_iff : timer.isEnabled = true ↔ timer.bank.get controlIndex &&& enableBit ≠ 0 :=
  bne_iff_ne

theorem IsConsistent.isRunning_eq (consistent : timer.IsConsistent) :
    timer.isRunning = timer.isEnabled :=
  Bool.eq_iff_iff.2 (consistent.trans isEnabled_iff.symm)

theorem perform_does {command : Command}
    (done : (timer.perform clock command).outcome = .ok (after, later)) :
    Does (fun _ => False) timer clock after later := by
  cases command with
  | read width address => cases done; exact .read width address
  | write width address value => exact .write width address value done
  | poll => exact .poll done
  | reset => cases done; exact .reset

/-! ## What asks for the interrupt -/

/-- The poll lets go of a deadline that has passed, and asks for the interrupt once. -/
structure Expires (timer : Timer) (clock : Clock) (expiry : Deadline) (after : Timer)
    (later : Clock) : Prop where
  running : ∃ start, timer.phase = .running start expiry
  reached : clock.hasReached expiry.time = true
  ends : (timer.poll clock).outcome = .ok (after, later)
  released : expiry ∉ after.held
  asks : (timer.poll clock).signals.filterMap Signal.interrupt? = [timer.source]

theorem turned_quiet (timer : Timer) (clock : Clock) (start : UInt64) :
    (timer.turned clock start).signals.filterMap Signal.interrupt? = [] := by
  refine List.filterMap_eq_nil_iff.2 fun signal signalled => ?_
  obtain ⟨missed, rfl⟩ := turned_signalsOnly timer clock start signal signalled
  rfl

/-- A deadline that the timer holds afterwards is a fresh one. -/
theorem turned_holds (timer : Timer) (clock : Clock) (start : UInt64) :
    (timer.turned clock start).Ensures fun (after, _) =>
      ∀ deadline ∈ after.held, clock.issued ≤ deadline.serial := by
  refine (turned_step timer clock start).imp ?_
  rintro ⟨after, later⟩ ⟨-, serves⟩ deadline known
  rcases serves.holds deadline known with old | fresh
  · exact absurd old (Multiset.notMem_zero deadline)
  · exact fresh.from_issued

/-- A poll asks for nothing unless it lets go of a deadline that has passed. -/
theorem poll_cases (issued : ∀ deadline ∈ timer.held, deadline.serial < clock.issued) :
    (timer.poll clock).signals.filterMap Signal.interrupt? = [] ∨
      ∃ expiry after later, timer.Expires clock expiry after later := by
  rcases timer.ahead_or_reached clock with ahead | ⟨start, expiry, phase, reached⟩
  · refine .inl ?_
    rw [poll_of_ahead ahead]
    rfl
  have polled := poll_of_reached phase reached
  have quiet := turned_quiet timer clock start
  have expired : (Run.signal (Signal.note (.timerExpired timer.index))).outcome = .ok () := rfl
  rw [Run.bind_of_ok expired] at polled
  cases turn : (timer.turned clock start).outcome with
  | error reason =>
      refine .inl ?_
      rw [polled, Run.bind_of_error turn]
      exact quiet
  | ok result =>
      obtain ⟨after, later⟩ := result
      rw [Run.bind_of_ok turn] at polled
      refine .inr ⟨expiry, after, later, ⟨start, phase⟩, reached, ?_, ?_, ?_⟩
      · rw [polled]
        rfl
      · intro known
        have old := issued expiry (held_of_running phase ▸ Multiset.mem_singleton_self expiry)
        have fresh := turned_holds timer clock start _ turn expiry known
        exact absurd fresh (Nat.not_le.2 old)
      · rw [polled]
        have final : ((timer.turned clock start).signals
            ++ [Signal.interrupt timer.source]).filterMap Signal.interrupt? = [timer.source] := by
          rw [List.filterMap_append, quiet]
          rfl
        exact final

/-- A timer that is not running has nothing to poll. -/
theorem poll_of_idle (idle : timer.isRunning = false) (clock : Clock) :
    timer.poll clock = pure (timer, clock) := by
  refine poll_of_ahead fun deadline known => ?_
  rw [held_eq_zero_iff.2 idle] at known
  exact absurd known (Multiset.notMem_zero deadline)

/-- Nothing but a poll of a running timer asks for its interrupt. -/
theorem perform_quiet {command : Command}
    (done : (timer.perform clock command).outcome = .ok (after, later))
    (idle : timer.isRunning = false) :
    (timer.perform clock command).signals.filterMap Signal.interrupt? = [] := by
  cases command with
  | read width address =>
      have quiet := (timer.read_eq clock width address).2.1
      exact (congrArg (List.filterMap _) (List.append_nil _)).trans quiet
  | write width address value => exact (write_minds timer clock width address value _ done).quiet
  | poll =>
      change (timer.poll clock).signals.filterMap Signal.interrupt? = []
      rw [poll_of_idle idle]
      rfl
  | reset => rfl

/-! ## What every operation keeps -/

/-- How a timer stands to its history. -/
structure Standing (timer : Timer) (clock : Clock) (idle : List Signal) : Prop where
  built : timer.bank.Built
  consistent : timer.IsConsistent
  issued : ∀ deadline ∈ timer.held, deadline.serial < clock.issued
  quiet : idle.filterMap Signal.interrupt? = []

theorem Standing.idled (standing : Standing timer clock idle) {signals : List Signal}
    (quiet : timer.isRunning = false → signals.filterMap Signal.interrupt? = []) :
    (timer.idled idle signals).filterMap Signal.interrupt? = [] := by
  unfold Timer.idled
  split
  next => rfl
  next disabled =>
    have stopped : timer.isRunning = false := by
      rw [standing.consistent.isRunning_eq]
      simpa using disabled
    rw [List.filterMap_append, standing.quiet, quiet stopped]
    rfl

theorem Standing.of_does {restorable : Snapshot → Prop} {signals : List Signal}
    (standing : Standing timer clock idle) (does : Does restorable timer clock after later)
    (own : ∀ saved, restorable saved → saved.outline.IsConsistent)
    (quiet : timer.isRunning = false → signals.filterMap Signal.interrupt? = []) :
    Standing after later (timer.idled idle signals) where
  built := does.built standing.built
  consistent := does.isConsistent own standing.built standing.consistent
  issued := by
    have step := does.step UInt64.zero_le fun saved _ _ => saved.ahead_zero
    exact step.serves.issued standing.issued
  quiet := standing.idled quiet

theorem standing_start (index : Nat) (source : UInt8) (clock : Clock) :
    Standing { index, source } clock [] where
  built := ⟨rfl, Bank.fits_initial (by decide)⟩
  consistent := by
    have clear : (Bank.initial registers).get controlIndex &&& enableBit = 0 := by decide
    exact iff_of_false Bool.false_ne_true (not_not.2 clear)
  issued _ known := absurd known (Multiset.notMem_zero _)
  quiet := rfl

theorem Standing.outline (standing : Standing timer clock idle) :
    (timer.snapshot clock).outline.IsConsistent := by
  rw [← (holds_snapshot standing.built.fits clock).outline_eq]
  exact standing.consistent

theorem History.standing (history : History timer clock idle) : Standing timer clock idle := by
  induction history with
  | start index source clock => exact standing_start index source clock
  | perform _ command done standing =>
      exact standing.of_does (perform_does done) (fun _ => False.elim) (perform_quiet done)
  | @restore timer other after clock otherClock later _ _ answer _ _ done standing saved =>
      have own : ∀ snapshot, other.snapshot otherClock = snapshot →
          snapshot.outline.IsConsistent := by
        rintro _ rfl
        exact saved.outline
      refine standing.of_does (.restore rfl done) own fun _ => ?_
      rw [restore_silent timer clock (other.snapshot otherClock)]
      rfl
  | increment _ cycles moved standing =>
      exact { standing with issued := fun deadline known =>
        (Clock.issued_of_increment moved).symm ▸ standing.issued deadline known }
  | share _ leaves standing =>
      exact { standing with issued := fun deadline known =>
        (standing.issued deadline known).trans_le leaves.issued }

/-! ## The life of a timer -/

end Timer

end SocPeripherals
