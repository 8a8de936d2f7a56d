import SocPeripherals.Proofs.Late.CatchUp

/-!
# Settled blocks in use

A settled block stays settled whatever else is done with it at one cycle, as long as at most one
memory transfer is under way. It can be advanced, and what every tick keeps to an advance keeps to.
-/

namespace SocPeripherals

namespace Block

variable {μ : Type} [Bus μ] {block after : Block μ} {settings : Settings}
  {index : Fin Dma.channelCount}

/-- Acts place their deadlines ahead. -/
theorem Acts.ahead (acts : Acts (fun _ => False) block after) (sound : Sound settings block)
    (ahead : ∀ deadline ∈ block.held, block.clock.hasReached deadline.time = false) :
    ∀ deadline ∈ after.held, after.clock.hasReached deadline.time = false := by
  have kept : Sound settings after ∧
      ∀ deadline ∈ after.held, after.clock.hasReached deadline.time = false := by
    induction acts with
    | refl => exact ⟨sound, ahead⟩
    | tail _ act kept =>
        have step := act.step UInt64.le_rfl (fun _ never => never.elim) (fun _ never => never.elim)
          kept.1
        exact ⟨step.sound kept.1, step.serves.hasReached (by decide) kept.2⟩
  exact kept.2

/-- Acts keep a block settled, if at most one memory transfer is under way afterwards. -/
theorem Settled.acts (settled : Settled settings block) (acts : Acts (fun _ => False) block after)
    (lone : after.dma.IsLone index) : Settled settings after where
  punctual := (punctual_lasting fun _ never => never.elim).acts settled.punctual acts
  awaits deadline known := by
    have ahead := acts.ahead settled.punctual.sound
      (fun deadline known => (settled.awaits deadline known).ahead) deadline known
    have keeps := (acts.keeps settled.punctual.sound settled.punctual.distinct
      fun deadline known _ => (settled.awaits deadline known).pending).2.2
    exact ⟨keeps deadline known ahead, ahead⟩
  lone := ⟨index, lone⟩

/-! ## Advancing -/

theorem short_of_tick {cycles : UInt64} {result : Bool × Block μ}
    (done : (block.tick cycles).outcome = .ok result) : cycles < Clock.horizon := by
  obtain ⟨⟨_, _⟩, moved, _⟩ := Run.outcome_bind_eq_ok.1 done
  obtain ⟨⟨_, _⟩, moving, _⟩ := Run.except_bind_eq_ok.1 moved
  exact Clock.short_of_increment moving

section Advancing

variable {holds : Nat → List (Nat × Event) → Block μ → Prop} {left : UInt64} {elapsed : Nat}
  {heard : List (Nat × Event)}

/-- A tick of some cycles keeps to what holds of the cycles gone by and of what was heard. -/
def TickKeeps (holds : Nat → List (Nat × Event) → Block μ → Prop) (elapsed : Nat)
    (heard : List (Nat × Event)) (block : Block μ) (cycles : UInt64) : Prop :=
  (block.tick cycles).Tells fun (_, after) events =>
    holds (elapsed + cycles.toNat) (heard ++ events.map (elapsed + cycles.toNat, ·)) after

/-- One hop and those after it. -/
theorem hop_keepsTo_succ (steps : Nat) (polled : Bool) (within : block.clock.Within)
    (ticks : TickKeeps holds elapsed heard block (block.nextStep left))
    (rest : block.nextStep left < left → ∀ (between : Block μ) (polled : Bool)
      (heard : List (Nat × Event)), between.clock.Upcoming →
      holds (elapsed + (block.nextStep left).toNat) heard between →
      (hop steps between (left - block.nextStep left) polled []).Ensures fun (_, after) =>
        holds (elapsed + (block.nextStep left).toNat + (left - block.nextStep left).toNat)
          (heard ++ hopDated steps between (left - block.nextStep left)
            (elapsed + (block.nextStep left).toNat)) after) :
    (hop (steps + 1) block left polled []).Ensures fun (_, after) =>
      holds (elapsed + left.toNat) (heard ++ hopDated (steps + 1) block left elapsed) after := by
  rw [hop_succ]
  refine .bind ((ticks.ensures.and (tick_upcoming within _)).and (.own _)) ?_
  rintro ⟨reached, between⟩ ⟨⟨held, upcoming⟩, ticked⟩
  unfold hopDated
  dsimp only
  rw [ticked]
  dsimp only
  split
  next last =>
    have whole := congrArg UInt64.toNat last
    refine .pure ?_
    rw [whole]
    exact held
  next more =>
    obtain ⟨_, last | ⟨less, _⟩⟩ := nextStep_cases block left
    · exact absurd last.symm more
    have parts : (block.nextStep left).toNat + (left - block.nextStep left).toNat = left.toNat := by
      rw [UInt64.toNat_sub_of_le _ _ (UInt64.le_of_lt less)]
      exact Nat.add_sub_cancel' (UInt64.le_iff_toNat_le.1 (UInt64.le_of_lt less))
    rw [← parts, ← Nat.add_assoc, ← List.append_assoc]
    exact rest less between _ _ upcoming held

theorem hop_keepsTo
    (ticks : ∀ elapsed heard block cycles, holds elapsed heard block →
      (∀ deadline ∈ block.clock.pending, cycles ≤ block.clock.distance deadline.time) →
        TickKeeps holds elapsed heard block cycles)
    (steps : Nat) (enough : left.toNat < steps) (polled : Bool) (upcoming : block.clock.Upcoming)
    (held : holds elapsed heard block) :
    (hop steps block left polled []).Ensures fun (_, after) =>
      holds (elapsed + left.toNat) (heard ++ hopDated steps block left elapsed) after := by
  induction steps generalizing block left polled elapsed heard with
  | zero => exact absurd enough (Nat.not_lt_zero _)
  | succ steps ih =>
      obtain ⟨first, next⟩ := nextStep_cases block left
      refine hop_keepsTo_succ steps polled upcoming.within (ticks elapsed heard block _ held first)
        fun less between polled heard further held => ih ?_ polled further held
      have positive : 0 < block.nextStep left := by
        obtain last | ⟨_, deadline, placed, next⟩ := next
        · exact absurd (last ▸ less) (UInt64.lt_irrefl _)
        · exact next ▸ (upcoming deadline placed).1
      rw [UInt64.toNat_sub_of_le _ _ (UInt64.le_of_lt less)]
      rw [UInt64.lt_iff_toNat_lt] at less positive
      rw [UInt64.toNat_zero] at positive
      omega

/-- What every tick up to the first deadline keeps to over the cycles that go by and the events that
are heard, an advance keeps to. -/
theorem advance_keepsTo
    (ticks : ∀ elapsed heard block cycles, holds elapsed heard block →
      (∀ deadline ∈ block.clock.pending, cycles ≤ block.clock.distance deadline.time) →
        TickKeeps holds elapsed heard block cycles)
    (within : block.clock.Within) (cycles : UInt64) (heard : List (Nat × Event))
    (held : holds elapsed heard block) :
    (block.advance cycles).Ensures fun (_, after) =>
      holds (elapsed + cycles.toNat) (heard ++ block.advanceDated cycles elapsed) after := by
  obtain ⟨first, -⟩ := nextStep_cases block cycles
  refine hop_keepsTo_succ _ false within (ticks elapsed heard block _ held first)
    fun less between polled heard upcoming held => hop_keepsTo ticks _ ?_ polled upcoming held
  rw [UInt64.toNat_sub_of_le _ _ (UInt64.le_of_lt less)]
  omega

/-- What every tick keeps to over the cycles that go by, an advance keeps to. -/
theorem advance_ensures {holds : Nat → Block μ → Prop}
    (ticks : ∀ elapsed block cycles, holds elapsed block → (block.tick cycles).Ensures
      fun (_, after) => holds (elapsed + cycles.toNat) after)
    (within : block.clock.Within) (cycles : UInt64) (held : holds elapsed block) :
    (block.advance cycles).Ensures fun (_, after) => holds (elapsed + cycles.toNat) after := by
  have undated : ∀ elapsed heard block cycles, holds elapsed block →
      (∀ deadline ∈ block.clock.pending, cycles ≤ block.clock.distance deadline.time) →
        TickKeeps (fun elapsed _ block => holds elapsed block) elapsed heard block cycles :=
    fun elapsed _ block cycles held _ => ticks elapsed block cycles held
  exact advance_keepsTo undated within cycles [] held

end Advancing

/-- If every tick comes to its end and keeps what the next one needs, the hops come to their end. -/
theorem hop_succeeds {kept : Block μ → Prop}
    (ticks : ∀ {block cycles}, kept block → cycles < Clock.horizon →
      (block.tick cycles).Succeeds fun (_, after) => kept after)
    (steps : Nat) (known : kept block) {left : UInt64} (short : left < Clock.horizon)
    (polled : Bool) : (hop steps block left polled []).Succeeds fun _ => True := by
  induction steps generalizing block left polled with
  | zero => exact .pure trivial
  | succ steps ih =>
      obtain ⟨_, cases⟩ := nextStep_cases block left
      have le : block.nextStep left ≤ left :=
        cases.elim UInt64.le_of_eq fun less => UInt64.le_of_lt less.1
      rw [hop_succ]
      refine (ticks known (UInt64.lt_of_le_of_lt le short)).bind ?_
      rintro ⟨reached, between⟩ known
      dsimp only
      split
      next => exact .pure trivial
      next =>
        refine ih known (UInt64.lt_of_le_of_lt ?_ short) _
        rw [UInt64.le_iff_toNat_le, UInt64.toNat_sub_of_le _ _ le]
        exact Nat.sub_le _ _

/-- The hops of a settled block come to their end. -/
theorem Settled.hop_succeeds (settled : Settled settings block) (steps : Nat) {left : UInt64}
    (short : left < Clock.horizon) (polled : Bool) :
    (hop steps block left polled []).Succeeds fun _ => True := by
  refine Block.hop_succeeds (fun settled brief => ?_) steps settled short polled
  obtain ⟨result, done, _⟩ := settled.tick_gives brief
  exact ⟨result, done, settled.tick brief result done⟩

end Block

end SocPeripherals
