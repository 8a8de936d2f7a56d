import SocPeripherals.Timer
import SocPeripherals.Proofs.Lockstep.Clock

/-!
# Timers in lockstep

Timers on clocks in lockstep do the same if they have the same registers and are in paired periods.
What a stopped timer has latched is never looked at, only shown in what it saves.
-/

namespace SocPeripherals

namespace Timer

variable {lockstep : Clock.Lockstep} {idle : Latch → Latch → Prop} {timer twin : Timer}
  {clock other : Clock}

/-- The timers are stopped with latches that may be told apart only as far as `idle` allows, or in
paired periods. -/
inductive Alike (lockstep : Clock.Lockstep) (idle : Latch → Latch → Prop) : Timer → Timer → Prop
    where
  | stopped (index : Nat) (source : UInt8) (bank : Bank registers) {latch latchOther : Latch}
      (unused : idle latch latchOther) :
      Alike lockstep idle ⟨index, source, bank, latch, .stopped⟩
        ⟨index, source, bank, latchOther, .stopped⟩
  | running (index : Nat) (source : UInt8) (bank : Bank registers) (latch : Latch) (start : UInt64)
      {expiry paired : Deadline} (deadlines : lockstep.deadlines expiry paired) :
      Alike lockstep idle ⟨index, source, bank, latch, .running start expiry⟩
        ⟨index, source, bank, latch, .running (start + lockstep.shift) paired⟩

theorem Alike.bank_eq (alike : Alike lockstep idle timer twin) : twin.bank = timer.bank := by
  cases alike <;> rfl

theorem Alike.index_eq (alike : Alike lockstep idle timer twin) : twin.index = timer.index := by
  cases alike <;> rfl

theorem Alike.source_eq (alike : Alike lockstep idle timer twin) : twin.source = timer.source := by
  cases alike <;> rfl

theorem Alike.isRunning_eq (alike : Alike lockstep idle timer twin) :
    twin.isRunning = timer.isRunning := by
  cases alike <;> rfl

theorem Alike.latched_eq (alike : Alike lockstep idle timer twin) :
    twin.latched = timer.latched := by
  cases alike <;> rfl

theorem Alike.withBank (alike : Alike lockstep idle timer twin) (bank : Bank registers) :
    Alike lockstep idle { timer with bank } { twin with bank } := by
  cases alike with
  | stopped index source _ unused => exact .stopped index source bank unused
  | running index source _ latch start deadlines =>
      exact .running index source bank latch start deadlines

theorem Alike.count_eq (alike : Alike lockstep idle timer twin)
    (clocks : lockstep.clocks clock other) : twin.count other = timer.count clock := by
  cases alike with
  | stopped => rfl
  | running index source bank latch start deadlines =>
      exact congrArg latch.countAfter (Clock.Lockstep.elapsed_eq clocks start)

/-- Timers and their clocks, compared with their twins. -/
abbrev Pair (lockstep : Clock.Lockstep) (idle : Latch → Latch → Prop)
    (first second : Timer × Clock) : Prop :=
  Alike lockstep idle first.1 second.1 ∧ lockstep.clocks first.2 second.2

theorem skipMissed_shift (now start period shift : UInt64) :
    skipMissed (now + shift) (start + shift) period
      = ((skipMissed now start period).1 + shift, (skipMissed now start period).2) := by
  have ahead : start + shift - (now + shift) = start - now := by grind
  have behind : now + shift - (start + shift) = now - start := by grind
  unfold skipMissed
  dsimp only
  rw [ahead, behind]
  generalize (if start - now ≤ Clock.horizon then 0 else (now - start) / period) = missed
  rw [Prod.mk.injEq]
  exact ⟨by grind, rfl⟩

theorem place_alike (alike : Alike lockstep idle timer twin)
    (clocks : lockstep.clocks clock other) (begun period : UInt64) :
    (timer.place clock begun period).Matches (Pair lockstep idle)
      (twin.place other (begun + lockstep.shift) period) := by
  have time : begun + lockstep.shift + period = begun + period + lockstep.shift := by grind
  unfold place
  rw [time]
  refine .bind (Clock.Lockstep.scheduleAt clocks (begun + period)) ?_
  rintro ⟨expiry, after⟩ ⟨paired, later⟩ ⟨deadlines, clocks⟩
  refine .pure ⟨?_, clocks⟩
  rw [alike.index_eq, alike.source_eq, alike.bank_eq, alike.latched_eq]
  exact .running _ _ _ _ begun deadlines

theorem arm_alike (alike : Alike lockstep idle timer twin) (clocks : lockstep.clocks clock other)
    (start : UInt64) :
    (timer.arm clock start).Matches (Pair lockstep idle)
      (twin.arm other (start + lockstep.shift)) := by
  unfold arm
  rw [alike.latched_eq]
  refine .bind (.refl _) ?_
  rintro period _ rfl
  rw [lockstep.now_eq clocks, skipMissed_shift]
  dsimp only
  have placing := place_alike alike clocks (skipMissed clock.now start period).1 period
  split
  next => exact .bind (.refl _) fun _ _ _ => placing
  next => exact placing

theorem halt_alike (reflexive : ∀ latch, idle latch latch) (alike : Alike lockstep idle timer twin)
    (clocks : lockstep.clocks clock other) :
    Pair lockstep idle (timer.halt clock) (twin.halt other) := by
  cases alike with
  | stopped index source bank unused => exact ⟨.stopped index source bank unused, clocks⟩
  | running index source bank latch start deadlines =>
      exact ⟨.stopped index source bank (reflexive latch), lockstep.drop clocks deadlines⟩

theorem read_alike (alike : Alike lockstep idle timer twin) (clocks : lockstep.clocks clock other)
    (width : Width) (address : UInt32) :
    (timer.read clock width address).Matches
      (fun (value, after) (valueOther, afterOther) =>
        value = valueOther ∧ Alike lockstep idle after afterOther)
      (twin.read other width address) := by
  unfold read
  refine .bind (.refl _) ?_
  rintro found _ rfl
  cases found with
  | none => exact .pure ⟨rfl, alike⟩
  | some selection =>
      dsimp only
      split
      next => exact .pure ⟨by rw [alike.count_eq clocks], alike⟩
      next =>
        rw [alike.bank_eq]
        exact .pure ⟨rfl, alike.withBank _⟩

theorem controlled_alike (reflexive : ∀ latch, idle latch latch)
    (alike : Alike lockstep idle timer twin) (clocks : lockstep.clocks clock other)
    (change : Change) :
    (timer.controlled clock change).Matches (Pair lockstep idle)
      (twin.controlled other change) := by
  unfold controlled
  rw [alike.index_eq, alike.bank_eq, alike.isRunning_eq]
  split
  next =>
    refine .bind (.refl _) fun _ _ _ => ?_
    split
    next => exact .pure ⟨alike, clocks⟩
    next =>
      rw [lockstep.now_eq clocks]
      exact arm_alike alike clocks clock.now
  next =>
    split
    next => exact .bind (.refl _) fun _ _ _ => .pure (halt_alike reflexive alike clocks)
    next => exact .pure ⟨alike, clocks⟩

theorem write_alike (reflexive : ∀ latch, idle latch latch)
    (alike : Alike lockstep idle timer twin) (clocks : lockstep.clocks clock other) (width : Width)
    (address value : UInt32) :
    (timer.write clock width address value).Matches (Pair lockstep idle)
      (twin.write other width address value) := by
  unfold write
  refine .bind (.refl _) ?_
  rintro found _ rfl
  cases found with
  | none => exact .pure ⟨alike, clocks⟩
  | some selection =>
      dsimp only
      rw [alike.bank_eq]
      split
      next => exact controlled_alike reflexive (alike.withBank _) clocks _
      next => exact .pure ⟨alike.withBank _, clocks⟩

theorem poll_alike (reflexive : ∀ latch, idle latch latch)
    (alike : Alike lockstep idle timer twin) (clocks : lockstep.clocks clock other) :
    (timer.poll clock).Matches (Pair lockstep idle) (twin.poll other) := by
  cases alike with
  | stopped index source bank unused =>
      exact .pure ⟨.stopped index source bank unused, clocks⟩
  | @running index source bank latch start expiry paired deadlines =>
      unfold poll
      dsimp only
      rw [Clock.Lockstep.hasReached_eq clocks deadlines]
      split
      next =>
        refine .bind (.refl _) fun _ _ _ => ?_
        split
        next =>
          refine .bind (.refl _) ?_
          rintro period _ rfl
          have begun : start + lockstep.shift + period = start + period + lockstep.shift := by grind
          rw [begun]
          have alike : Alike lockstep idle ⟨index, source, bank, latch, .running start expiry⟩
              ⟨index, source, bank, latch, .running (start + lockstep.shift) paired⟩ :=
            .running index source bank latch start deadlines
          refine .bind (arm_alike alike clocks _) fun after afterOther pair => ?_
          exact .bind (.refl _) fun _ _ _ => .pure pair
        next =>
          have stopped : Pair lockstep idle
              (⟨index, source, bank.clearBits controlIndex enableBit, latch, .stopped⟩, clock)
              (⟨index, source, bank.clearBits controlIndex enableBit, latch, .stopped⟩, other) :=
            ⟨.stopped index source _ (reflexive latch), clocks⟩
          refine .bind (.pure stopped) fun after afterOther pair => ?_
          exact .bind (.refl _) fun _ _ _ => .pure pair
      next => exact .pure ⟨.running index source bank latch start deadlines, clocks⟩

theorem reset_alike (reflexive : ∀ latch, idle latch latch)
    (alike : Alike lockstep idle timer twin) (clocks : lockstep.clocks clock other) :
    Pair lockstep idle (timer.reset clock) (twin.reset other) := by
  obtain ⟨halted, clocks⟩ := halt_alike reflexive alike clocks
  unfold reset
  dsimp only
  rw [halted.bank_eq]
  exact ⟨halted.withBank _, clocks⟩

/-- The saved timers come back alike: they differ at most in what is not taken over from a stopped
one. -/
structure Snapshot.Alike (saved savedOther : Snapshot) : Prop where
  regs : savedOther.regs = saved.regs
  running : savedOther.running = saved.running
  present : savedOther.stepCycles = 0 ↔ saved.stepCycles = 0
  same : saved.running = true → savedOther = saved

theorem Snapshot.Alike.refl (saved : Snapshot) : saved.Alike saved :=
  ⟨rfl, rfl, .rfl, fun _ => rfl⟩

theorem snapshot_alike (alike : Alike lockstep idle timer twin)
    (clocks : lockstep.clocks clock other) :
    (timer.snapshot clock).Alike (twin.snapshot other) := by
  cases alike with
  | @stopped index source bank latch latchOther unused =>
      refine ⟨rfl, rfl, ?_, fun running => Bool.noConfusion running⟩
      exact ⟨fun zero => absurd zero latchOther.stepCycles_ne_zero,
        fun zero => absurd zero latch.stepCycles_ne_zero⟩
  | @running index source bank latch start expiry paired deadlines =>
      have same :
          snapshot ⟨index, source, bank, latch, .running (start + lockstep.shift) paired⟩ other
            = snapshot ⟨index, source, bank, latch, .running start expiry⟩ clock := by
        unfold snapshot
        dsimp only
        rw [Clock.Lockstep.elapsed_eq clocks, Clock.Lockstep.remaining_eq clocks deadlines]
        rfl
      rw [same]
      exact .refl _

theorem resume_alike (alike : Alike lockstep idle timer twin) (clocks : lockstep.clocks clock other)
    (latch : Latch) (saved : Snapshot) :
    (timer.resume clock latch saved).Matches (Pair lockstep idle)
      (twin.resume other latch saved) := by
  unfold resume
  extract_lets goesOn goesOnOther
  have placing (rest : UInt64) :
      (goesOn rest).Matches (Pair lockstep idle) (goesOnOther rest) := by
    refine .bind (Clock.Lockstep.scheduleIn clocks rest) ?_
    rintro ⟨expiry, after⟩ ⟨paired, later⟩ ⟨deadlines, clocks⟩
    refine .pure ⟨?_, clocks⟩
    rw [alike.index_eq, alike.source_eq, alike.bank_eq, Clock.Lockstep.start_eq clocks]
    exact .running _ _ _ _ _ deadlines
  cases saved.remaining with
  | none =>
      refine .bind (.refl _) ?_
      rintro period _ rfl
      refine .bind (.refl _) ?_
      rintro rest _ rfl
      exact placing rest
  | some cycles => exact placing cycles

theorem restore_alike (reflexive : ∀ latch, idle latch latch)
    (alike : Alike lockstep idle timer twin) (clocks : lockstep.clocks clock other)
    {saved savedOther : Snapshot} (same : saved.Alike savedOther) :
    (timer.restore clock saved).Matches
      (fun (answer, after) (answerOther, afterOther) =>
        answer = answerOther ∧ Pair lockstep idle after afterOther)
      (twin.restore other savedOther) := by
  unfold restore
  dsimp only
  rw [alike.bank_eq, same.regs, same.running]
  split
  next present =>
    rw [dif_pos (fun zero => present (same.present.1 zero))]
    split
    next => exact .pure ⟨rfl, alike, clocks⟩
    next bank _ =>
      obtain ⟨halted, clocks⟩ := halt_alike reflexive alike clocks
      have loaded := halted.withBank bank
      split
      next running =>
        cases same.same running
        refine .bind (resume_alike loaded clocks _ _) ?_
        rintro after afterOther pair
        exact .pure ⟨rfl, pair⟩
      next => exact .pure ⟨rfl, loaded, clocks⟩
  next absent =>
    rw [dif_neg (fun present => absent fun zero => present (same.present.2 zero))]
    exact .pure ⟨rfl, alike, clocks⟩

end Timer

end SocPeripherals
