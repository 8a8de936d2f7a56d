import SocPeripherals.Proofs.Block.Invariant
import SocPeripherals.Proofs.Block.Kept

/-!
# The pending deadlines of a block

Whatever is done to a block, and whoever else uses its clock, the pending deadlines lie less than
the horizon ahead. Only restoring can place one at the present cycle. The interrupt line is always
at the level that the masks call for.
-/

namespace SocPeripherals

/-- A clock as its users can leave it. -/
inductive Clock.Used : Clock → Prop where
  | fresh (identity : Nat) (now : UInt64) : Used { identity, now }
  | increment {clock after : Clock} {cycles : UInt64} {reached : Bool} (used : Used clock)
      (done : clock.increment cycles = .ok (reached, after)) : Used after
  | scheduleAt {clock after : Clock} {time : UInt64} {deadline : Deadline} (used : Used clock)
      (done : clock.scheduleAt time = .ok (deadline, after)) : Used after
  | cancel {clock after : Clock} {deadline : Deadline} (used : Used clock)
      (done : clock.cancel deadline = .ok after) : Used after

theorem Clock.within_of_cancel {clock after : Clock} {deadline : Deadline} (within : clock.Within)
    (done : clock.cancel deadline = .ok after) : after.Within := by
  cases of_cancel done
  exact (Serves.drop 0 clock deadline).follows.within within

theorem Clock.Used.within {clock : Clock} (used : Used clock) : clock.Within := by
  induction used with
  | fresh identity now =>
      intro deadline placed
      contradiction
  | increment _ done within => exact (upcoming_of_increment within done).within
  | scheduleAt _ done within => exact within_of_scheduleAt within done
  | cancel _ done within => exact within_of_cancel within done

namespace Block

variable {μ : Type} [Bus μ] {restorable : Snapshot → Prop} {block after : Block μ}
  {least : UInt64}

/-- The use of the clock that an act makes. -/
theorem Act.uses (act : Act restorable block after) (le : least ≤ 1)
    (ahead : ∀ saved, restorable saved → ∀ cyclesPerUnit, saved.Ahead least cyclesPerUnit) :
    Clock.Uses least block.held after.held block.clock after.clock := by
  cases act with
  | misc resets fits => exact (Clock.Serves.refl least block.held block.clock).uses
  | controller does => exact (Clock.Serves.refl least block.held block.clock).uses
  | timer index does =>
      have step := does.step le fun part own running => by
        obtain ⟨saved, known, listed⟩ := own
        exact (ahead saved known 0).timers part listed running
      exact (step.serves.uses.ofPart.frame _).frame _
  | uart index does =>
      have tends := does.tends le fun part own => by
        obtain ⟨saved, known, listed⟩ := own
        exact (ahead saved known 0).uarts part listed
      exact (tends.uses.ofPart.frame_left _).frame _
  | channel index does =>
      have tends := does.tends le fun part own => by
        obtain ⟨saved, known, listed⟩ := own
        exact (ahead saved known _).dma part listed
      exact tends.serves.uses.ofPart.frame_left _

theorem Act.follows (act : Act restorable block after) (le : least ≤ 1)
    (ahead : ∀ saved, restorable saved → ∀ cyclesPerUnit, saved.Ahead least cyclesPerUnit) :
    Clock.Follows least block.clock after.clock :=
  (act.uses le ahead).follows

theorem Acts.follows (acts : Acts restorable block after) (le : least ≤ 1)
    (ahead : ∀ saved, restorable saved → ∀ cyclesPerUnit, saved.Ahead least cyclesPerUnit) :
    Clock.Follows least block.clock after.clock := by
  induction acts with
  | refl => exact .refl least block.clock
  | tail _ act follows => exact follows.trans (act.follows le ahead)

/-- A poll places deadlines ahead of the present cycle only. -/
theorem poll_follows (block : Block μ) :
    block.poll.Ensures fun after => Clock.Follows 1 block.clock after.clock :=
  (poll_acts (fun _ => False) block).imp fun _ acts =>
    acts.follows UInt64.le_rfl fun _ never => never.elim

/-- After a tick the pending deadlines lie ahead of the present cycle. -/
theorem tick_upcoming (within : block.clock.Within) (cycles : UInt64) :
    (block.tick cycles).Ensures fun (_, after) => after.clock.Upcoming := by
  unfold tick
  refine .bind (.except _) ?_
  rintro ⟨reached, moved⟩ done
  obtain ⟨clock, moving, rfl⟩ := of_increment done
  have upcoming := Clock.upcoming_of_increment within moving
  dsimp only
  split
  next =>
    refine .bind (poll_follows _) fun after follows => .pure ?_
    exact follows.upcoming (by decide) upcoming
  next => exact .pure upcoming

theorem within_lasting : Lasting (fun _ => True) fun block : Block μ => block.clock.Within where
  act within act := (act.follows UInt64.zero_le fun saved _ => saved.ahead_zero).within within
  moved within done := by
    obtain ⟨clock, moving, rfl⟩ := of_increment done
    exact (Clock.upcoming_of_increment within moving).within

/-- Every command leaves the pending deadlines less than the horizon ahead. -/
theorem perform_within (within : block.clock.Within) (command : Command) :
    (block.perform command).Ensures fun (_, after) => after.clock.Within := by
  cases command with
  | placeDeadline cycles =>
      refine .bind (.except _) ?_
      rintro ⟨deadline, clock⟩ placed
      exact .pure (Clock.within_of_scheduleAt within placed)
  | _ => exact within_lasting.perform within trivial trivial

/-- A block as its host can leave it, on a clock that others use as well. -/
inductive Reached : Block μ → Prop where
  | create {settings : Settings} {clock : Clock} {memory : μ} {block : Block μ}
      (used : clock.Used) (created : create settings clock memory = .ok block) : Reached block
  | perform {block after : Block μ} {response : Response} (reached : Reached block)
      (command : Command) (done : (block.perform command).outcome = .ok (response, after)) :
      Reached after
  | cancel {block : Block μ} {deadline : Deadline} {clock : Clock} (reached : Reached block)
      (done : block.clock.cancel deadline = .ok clock) : Reached { block with clock }

theorem Reached.within (reached : Reached block) : block.clock.Within := by
  induction reached with
  | create used created =>
      obtain ⟨-, rfl⟩ := of_create created
      exact used.within
  | perform _ command done within => exact perform_within within _ _ done
  | cancel _ done within => exact Clock.within_of_cancel within done

theorem driven_lasting :
    Lasting (fun _ => True) fun block : Block μ => block.controller.IsDriven where
  act driven act := by
    cases act with
    | controller does => exact does.evolves.driven driven
    | _ => exact driven
  moved driven done := by
    obtain ⟨clock, -, rfl⟩ := of_increment done
    exact driven

/-- However a block was reached, its interrupt line is at the level that the masks call for. -/
theorem Reached.isDriven (reached : block.Reached) : block.controller.IsDriven := by
  induction reached with
  | create used created =>
      obtain ⟨-, rfl⟩ := of_create created
      have idle : Interrupt.Controller.IsDriven {} := rfl
      exact idle
  | perform _ command done driven =>
      cases command with
      | placeDeadline cycles =>
          obtain ⟨_, _, same⟩ := Run.outcome_bind_eq_ok.1 done
          cases same
          exact driven
      | _ => exact driven_lasting.perform driven (by trivial) (by trivial) _ done
  | cancel _ _ driven => exact driven

end Block

end SocPeripherals
