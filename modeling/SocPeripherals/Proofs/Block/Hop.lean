import SocPeripherals.Block.Schedule
import SocPeripherals.Proofs.Clock.Time
import SocPeripherals.Proofs.Run

/-!
# Hopping from deadline to deadline

One hop is a tick to the next deadline, and the hops after it begin where it ended.
-/

namespace SocPeripherals

namespace Block

variable {μ : Type} [Bus μ]

/-- The events from before come first. -/
theorem hop_seen (steps : Nat) (block : Block μ) (left : UInt64) (polled : Bool)
    (seen : List Event) :
    hop steps block left polled seen
      = ⟨(hop steps block left polled []).outcome,
          seen.reverse ++ (hop steps block left polled []).signals⟩ := by
  induction steps generalizing block left polled seen with
  | zero => simp [hop]
  | succ steps ih =>
      unfold hop
      dsimp only
      split
      next => simp [List.reverseAux_eq]
      next reached after _ =>
        split
        next => simp [List.reverseAux_eq]
        next =>
          rw [ih after _ _ (List.reverseAux _ seen), ih after _ _ (List.reverseAux _ [])]
          simp [List.reverseAux_eq]

/-- A hop and the hops after it. -/
theorem hop_succ (steps : Nat) (block : Block μ) (left : UInt64) (polled : Bool) :
    hop (steps + 1) block left polled [] = (do
      let (reached, after) ← block.tick (block.nextStep left)
      if left = block.nextStep left then return (polled || reached, after)
      else hop steps after (left - block.nextStep left) (polled || reached) []) := by
  conv_lhs => unfold hop
  dsimp only
  cases ticked : (block.tick (block.nextStep left)).outcome with
  | error fault => simp [bind, Run.andThen, ticked, List.reverseAux_eq]
  | ok result =>
      obtain ⟨reached, after⟩ := result
      rw [Run.bind_of_ok ticked]
      dsimp only
      split
      next => simp [pure, List.reverseAux_eq]
      next =>
        rw [hop_seen]
        simp [List.reverseAux_eq]

/-- What is heard of the hops, each event with the cycles that have gone by when it is heard. -/
def hopDated : Nat → Block μ → UInt64 → Nat → List (Nat × Event)
  | 0, _, _, _ => []
  | steps + 1, block, left, elapsed =>
      let cycles := block.nextStep left
      let ticked := block.tick cycles
      let heard := ticked.signals.map (elapsed + cycles.toNat, ·)
      match ticked.outcome with
      | .error _ => heard
      | .ok (_, after) =>
          if left = cycles then heard
          else heard ++ hopDated steps after (left - cycles) (elapsed + cycles.toNat)

theorem map_snd_hopDated (steps : Nat) (block : Block μ) (left : UInt64) (elapsed : Nat)
    (polled : Bool) : (hopDated steps block left elapsed).map Prod.snd
      = (hop steps block left polled []).signals := by
  induction steps generalizing block left elapsed polled with
  | zero => rfl
  | succ steps ih =>
      have undated (events : List Event) (cycle : Nat) :
          (events.map (cycle, ·)).map Prod.snd = events := by
        rw [List.map_map]
        exact List.map_id events
      rw [hop_succ]
      unfold hopDated
      dsimp only
      split
      next fault failed =>
        rw [Run.bind_of_error failed]
        exact undated _ _
      next reached after ticked =>
        rw [Run.bind_of_ok ticked]
        dsimp only
        split
        next => exact (undated _ _).trans (List.append_nil _).symm
        next => rw [List.map_append, undated, ih]

/-- What is heard while the clock is moved on, with the cycles that have gone by when it is
heard. -/
def advanceDated (block : Block μ) (cycles : UInt64) (elapsed : Nat) : List (Nat × Event) :=
  hopDated (cycles.toNat + 2) block cycles elapsed

/-- Without the cycles it is what is heard of the advance. -/
theorem map_snd_advanceDated (block : Block μ) (cycles : UInt64) (elapsed : Nat) :
    (block.advanceDated cycles elapsed).map Prod.snd = (block.advance cycles).signals :=
  map_snd_hopDated _ block cycles elapsed false

/-- Whether something was polled before is only passed on. -/
theorem hop_polled (steps : Nat) (block : Block μ) (left : UInt64) (polled : Bool) :
    hop steps block left polled [] = do
      let (reached, after) ← hop steps block left false []
      return (polled || reached, after) := by
  induction steps generalizing block left polled with
  | zero => simp [hop, bind, Run.andThen, pure]
  | succ steps ih =>
      rw [hop_succ, hop_succ, bind_assoc]
      congr 1
      funext ⟨reached, after⟩
      dsimp only
      split
      next => simp
      next =>
        rw [ih after _ (polled || reached), ih after _ (false || reached), bind_assoc]
        congr 1
        funext ⟨more, last⟩
        simp [Bool.or_assoc]

/-- What every tick keeps, the hops keep. -/
theorem hop_keeps {kept : Block μ → Prop} {block : Block μ}
    (ticks : ∀ {block : Block μ}, kept block → ∀ cycles,
      (block.tick cycles).Ensures fun (_, after) => kept after)
    (steps : Nat) (known : kept block) (left : UInt64) (polled : Bool) :
    (hop steps block left polled []).Ensures fun (_, after) => kept after := by
  induction steps generalizing block left polled with
  | zero => exact .pure known
  | succ steps ih =>
      rw [hop_succ]
      refine .bind (ticks known _) ?_
      rintro ⟨reached, between⟩ known
      dsimp only
      split
      next => exact .pure known
      next => exact ih known _ _

/-- Blocks that wait equally long and do the same on every tick do the same on all hops. -/
theorem hop_matches {related : Block μ → Block μ → Prop} {block twin : Block μ}
    (waits : ∀ {block twin}, related block twin →
      twin.clock.nextDistance = block.clock.nextDistance)
    (ticks : ∀ {block twin}, related block twin → ∀ cycles, (block.tick cycles).Matches
      (fun first second => first.1 = second.1 ∧ related first.2 second.2) (twin.tick cycles))
    (steps : Nat) (holds : related block twin) (left : UInt64) (polled : Bool) :
    (hop steps block left polled []).Matches
      (fun first second => first.1 = second.1 ∧ related first.2 second.2)
      (hop steps twin left polled []) := by
  induction steps generalizing block twin left polled with
  | zero => exact .pure ⟨rfl, holds⟩
  | succ steps ih =>
      have step : twin.nextStep left = block.nextStep left := by
        rw [nextStep, nextStep, waits holds]
      rw [hop_succ, hop_succ, step]
      refine .bind (ticks holds _) ?_
      rintro ⟨reached, after⟩ ⟨_, afterOther⟩ ⟨same, holds⟩
      cases same
      dsimp only
      split
      next => exact .pure ⟨rfl, holds⟩
      next => exact ih holds _ _

end Block

end SocPeripherals
