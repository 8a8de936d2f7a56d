import SocPeripherals.Bus.Ram
import SocPeripherals.Proofs.Block.Reached

/-!
# Hopping and stepping

A block whose clock is moved on from deadline to deadline does exactly what it does when the clock
is moved on one cycle at a time: the cycles in between reach no deadline, and every deadline that
a poll places lies ahead of the poll.
-/

namespace SocPeripherals

namespace Block

variable {μ : Type} [Bus μ] {block : Block μ} {cycles first second : UInt64}

/-- Moves the clock on cycle by cycle and polls the block at each cycle at which a deadline was
reached. Answers whether there was one. -/
def tickEach (block : Block μ) : Nat → Run Event (Bool × Block μ)
  | 0 => pure (false, block)
  | count + 1 => do
      let (reached, after) ← block.tick 1
      let (more, last) ← after.tickEach count
      return (reached || more, last)

/-- The block with its clock moved on and nothing else done. -/
def moved (block : Block μ) (cycles : UInt64) : Block μ :=
  { block with clock := block.clock.moved cycles }

theorem tickEach_add (block : Block μ) (before after : Nat) :
    block.tickEach (before + after) = do
      let (reached, between) ← block.tickEach before
      let (more, last) ← between.tickEach after
      return (reached || more, last) := by
  induction before generalizing block with
  | zero => simp [tickEach]
  | succ before ih =>
      rw [Nat.succ_add, tickEach, tickEach, bind_assoc]
      congr 1
      funext ⟨reached, between⟩
      dsimp only
      rw [ih between, bind_assoc, bind_assoc]
      congr 1
      funext ⟨more, between⟩
      simp [Bool.or_assoc]

/-- A tick that reaches no deadline only moves the clock. -/
theorem tick_of_quiet (short : cycles < Clock.horizon)
    (quiet : ∀ deadline ∈ block.clock.pending,
      (block.clock.moved cycles).hasReached deadline.time = false) :
    block.tick cycles = pure (false, block.moved cycles) := by
  unfold tick increment
  rw [Clock.increment_of_quiet short quiet]
  rfl

theorem tick_moved (block : Block μ) (short : second < Clock.horizon)
    (shortSum : first + second < Clock.horizon) :
    (block.moved first).tick second = block.tick (first + second) := by
  unfold tick increment
  rw [← Clock.increment_moved block.clock first short shortSum]
  rfl

theorem tickEach_one (block : Block μ) : block.tickEach 1 = block.tick 1 := by
  simp [tickEach]

/-- Cycles before the first deadline only move the clock. -/
theorem tickEach_of_quiet (upcoming : block.clock.Upcoming) (count : Nat)
    (short : count < Clock.horizon.toNat)
    (further : ∀ deadline ∈ block.clock.pending,
      count < (block.clock.distance deadline.time).toNat) :
    block.tickEach count = pure (false, block.moved (UInt64.ofNat count)) := by
  induction count with
  | zero => simp [tickEach, moved]
  | succ count ih =>
      have before := ih (Nat.lt_of_succ_lt short) fun deadline placed =>
        Nat.lt_of_succ_lt (further deadline placed)
      have shortSum : UInt64.ofNat count + 1 < Clock.horizon := by
        rw [← UInt64.ofNat_one, ← UInt64.ofNat_add, UInt64.lt_iff_toNat_lt,
          UInt64.toNat_ofNat_of_lt' (short.trans Clock.horizon.toNat_lt)]
        exact short
      have quiet := upcoming.quiet shortSum fun deadline placed => by
        rw [← UInt64.ofNat_one, ← UInt64.ofNat_add, UInt64.lt_iff_toNat_lt,
          UInt64.toNat_ofNat_of_lt' (short.trans Clock.horizon.toNat_lt)]
        exact further deadline placed
      rw [tickEach_add, before, pure_bind]
      dsimp only
      rw [tickEach_one, tick_moved block (by decide) shortSum, tick_of_quiet shortSum quiet,
        pure_bind, UInt64.ofNat_add, UInt64.ofNat_one]
      rfl

/-- A tick up to the first deadline is as many cycles one by one. -/
theorem tickEach_eq_tick (upcoming : block.clock.Upcoming) (positive : 0 < cycles)
    (short : cycles < Clock.horizon)
    (first : ∀ deadline ∈ block.clock.pending, cycles ≤ block.clock.distance deadline.time) :
    block.tickEach cycles.toNat = block.tick cycles := by
  have whole : (cycles - 1) + 1 = cycles := by grind
  have less : (cycles - 1).toNat < cycles.toNat := by
    rw [← UInt64.lt_iff_toNat_lt]
    grind
  have parts : cycles.toNat = (cycles - 1).toNat + 1 := by
    rw [UInt64.lt_iff_toNat_lt] at positive
    have one : (1 : UInt64) ≤ cycles := UInt64.le_iff_toNat_le.2 positive
    rw [UInt64.toNat_sub_of_le _ _ one, UInt64.toNat_one]
    exact (Nat.succ_pred_eq_of_pos positive).symm
  have quiet := tickEach_of_quiet upcoming (cycles - 1).toNat
    (less.trans (UInt64.lt_iff_toNat_lt.1 short)) fun deadline placed =>
      less.trans_le (UInt64.le_iff_toNat_le.1 (first deadline placed))
  rw [parts, tickEach_add, quiet, pure_bind]
  dsimp only
  rw [tickEach_one, UInt64.ofNat_toNat, tick_moved block (by decide) (whole.symm ▸ short), whole]
  simp

omit [Bus μ] in
theorem nextStep_cases (block : Block μ) (left : UInt64) :
    (∀ deadline ∈ block.clock.pending, block.nextStep left ≤ block.clock.distance deadline.time) ∧
      (block.nextStep left = left ∨ block.nextStep left < left ∧
        ∃ deadline ∈ block.clock.pending,
          block.clock.distance deadline.time = block.nextStep left) := by
  unfold nextStep
  cases next : block.clock.nextDistance with
  | none =>
      have empty := Clock.nextDistance_eq_none_iff.1 next
      exact ⟨fun deadline placed => absurd (empty ▸ placed) List.not_mem_nil, .inl rfl⟩
  | some distance =>
      obtain ⟨reaching, first⟩ := Clock.nextDistance_eq_some_iff.1 next
      change (∀ deadline ∈ block.clock.pending,
        (if distance ≤ left then distance else left) ≤ _) ∧
          ((if distance ≤ left then distance else left) = left ∨
            (if distance ≤ left then distance else left) < left ∧
              ∃ deadline ∈ block.clock.pending,
                _ = if distance ≤ left then distance else left)
      split
      next le =>
        refine ⟨first, ?_⟩
        rcases UInt64.lt_or_eq_of_le le with lt | same
        · exact .inr ⟨lt, reaching⟩
        · exact .inl same
      next gt =>
        refine ⟨fun deadline placed => ?_, .inl rfl⟩
        exact UInt64.le_trans (UInt64.le_of_lt (UInt64.not_le.1 gt)) (first deadline placed)

/-- The hops over some cycles do what the cycles do one by one. -/
theorem hop_eq_tickEach (steps : Nat) (upcoming : block.clock.Upcoming) {left : UInt64}
    (short : left < Clock.horizon) (enough : left.toNat < steps) :
    hop steps block left false [] = block.tickEach left.toNat := by
  induction steps generalizing block left with
  | zero => exact absurd enough (Nat.not_lt_zero _)
  | succ steps ih =>
      obtain ⟨first, last | ⟨less, deadline, placed, next⟩⟩ := nextStep_cases block left
      · -- No deadline comes before the end, so that one tick is all.
        rw [last] at first
        have whole : block.tick left = block.tickEach left.toNat := by
          by_cases finished : left = 0
          · subst finished
            have quiet := upcoming.quiet short fun deadline placed => (upcoming deadline placed).1
            rw [tick_of_quiet short quiet]
            simp [tickEach, moved]
          · exact (tickEach_eq_tick upcoming (UInt64.pos_iff_ne_zero.2 finished) short first).symm
        rw [hop_succ, last, ← whole]
        simp
      · -- The first tick ends at a deadline ahead, and the rest begins there.
        have positive : 0 < block.nextStep left := next ▸ (upcoming deadline placed).1
        have shortStep := UInt64.lt_trans less short
        have apart : left ≠ block.nextStep left := fun same =>
          UInt64.lt_irrefl _ (same ▸ less : block.nextStep left < block.nextStep left)
        have parts : left.toNat
            = (block.nextStep left).toNat + (left - block.nextStep left).toNat := by
          rw [UInt64.toNat_sub_of_le _ _ (UInt64.le_of_lt less)]
          exact (Nat.add_sub_cancel' (UInt64.le_iff_toNat_le.1 (UInt64.le_of_lt less))).symm
        rw [UInt64.lt_iff_toNat_lt] at positive short
        rw [hop_succ, parts, tickEach_add,
          tickEach_eq_tick upcoming (UInt64.lt_iff_toNat_lt.2 positive) shortStep first]
        refine (tick_upcoming upcoming.within _).bind_congr ?_
        rintro ⟨reached, after⟩ upcoming
        dsimp only
        rw [if_neg apart, hop_polled, ih upcoming]
        · simp
        · rw [UInt64.lt_iff_toNat_lt]
          omega
        · omega

/-- Moving the clock on from deadline to deadline does exactly what moving it on cycle by cycle
does, whatever else waits on the clock. -/
theorem advance_eq_tickEach (reached : block.Reached)
    (none_due : ∀ deadline ∈ block.clock.pending, deadline.time ≠ block.clock.now)
    (short : cycles < Clock.horizon) : block.advance cycles = block.tickEach cycles.toNat := by
  have upcoming : block.clock.Upcoming := fun deadline placed =>
    ⟨Clock.distance_pos (none_due deadline placed), reached.within deadline placed⟩
  exact hop_eq_tickEach _ upcoming short (by omega)

/-- A block whose first timer has been started, on a clock that somebody else uses as well. -/
theorem advance_eq_tickEach_running : ∃ block : Block Ram, block.Reached ∧
    block.clock.pending.length = 2 ∧ block.advance 100 = block.tickEach 100 := by
  have made : create {} {} Ram.empty = .ok (initial {} {} Ram.empty) := rfl
  have created := Reached.create (.fresh 0 0) made
  have shared := created.perform (.placeDeadline 7) rfl
  have counting := shared.perform (.write .word 0x1404 20) rfl
  have running := counting.perform (.write .word 0x1400 3) rfl
  exact ⟨_, running, rfl, advance_eq_tickEach running (by decide) (by decide)⟩

end Block

end SocPeripherals
