import SocPeripherals.Proofs.Block.PowerOn
import SocPeripherals.Proofs.Lockstep.Displaced

/-!
# Native deadlines

A clock that has itself issued all that it keeps is in lockstep with itself. A block whose deadlines
are native to its clock in this way stays such a block, whatever is done to it and whoever else uses
the clock, so that no two pending deadlines are ever the same.
-/

namespace SocPeripherals

/-! ## The clock in lockstep with itself -/

namespace Clock

variable {clock after : Clock} {deadline : Deadline} {time cycles : UInt64} {reached : Bool}

/-- Displaced by nothing, a clock's own deadlines are the same. -/
theorem IsOwn.displaced_self (own : clock.IsOwn) : clock.displaced clock.identity 0 = clock := by
  have same : clock.pending.map (·.displaced clock.identity 0) = clock.pending := by
    refine (List.map_congr_left fun deadline placed => ?_).trans (List.map_id clock.pending)
    simp [Deadline.displaced, ← own.own deadline placed]
  simp [displaced, same]

theorem IsOwn.isDisplaced (own : clock.IsOwn) :
    IsDisplaced clock.identity clock.identity 0 clock clock :=
  ⟨rfl, own, own.displaced_self.symm⟩

theorem IsOwn.increment (own : clock.IsOwn)
    (done : clock.increment cycles = .ok (reached, after)) : after.IsOwn := by
  rw [increment_of_lt (short_of_increment done)] at done
  cases done
  exact own.filter _ _

theorem IsOwn.scheduleAt (own : clock.IsOwn)
    (done : clock.scheduleAt time = .ok (deadline, after)) :
    deadline.clock = clock.identity ∧ after.identity = clock.identity ∧ after.IsOwn := by
  unfold Clock.scheduleAt at done
  split at done
  next =>
    cases done
    exact ⟨rfl, rfl, own.place time⟩
  next => contradiction

theorem IsOwn.cancel (own : clock.IsOwn) (done : clock.cancel deadline = .ok after) :
    after.identity = clock.identity ∧ after.IsOwn := by
  cases of_cancel done
  exact ⟨rfl, own.filter _ _⟩

/-- Whoever uses a clock, it has issued all that it keeps. -/
theorem Used.isOwn (used : Used clock) : clock.IsOwn := by
  induction used with
  | fresh identity now =>
      refine ⟨?_, Multiset.nodup_zero, ?_⟩
      · intro deadline placed
        contradiction
      · intro deadline placed
        contradiction
  | increment _ done own => exact own.increment done
  | scheduleAt _ done own => exact (own.scheduleAt done).2.2
  | cancel _ done own => exact (own.cancel done).2

end Clock

/-! ## Blocks with native deadlines -/

namespace Block

variable {μ : Type} {lockstep : Clock.Lockstep} {idle : Timer.Latch → Timer.Latch → Prop}
  {settings : Settings} {block : Block μ} {clock : Clock} {deadline : Deadline}

/-- A fresh block is like any block at power-on, if their clocks are in lockstep. -/
theorem IsFresh.alike (fresh : IsFresh settings block)
    (unused : ∀ index : Fin timerCount, idle {} block.timers[index].latch)
    (clocks : lockstep.clocks clock block.clock) :
    Alike lockstep idle (initial settings clock block.memory) block where
  clocks := clocks
  memory := rfl
  misc := fresh.misc
  controller := fresh.controller
  timers index := by
    have unused := unused index
    obtain ⟨latch, stopped⟩ := fresh.timers index
    rw [stopped] at unused ⊢
    rw [timer_initial]
    exact .stopped _ _ _ unused
  uarts index := by
    rw [uart_initial, fresh.uarts index]
    exact .mk _ _ _ _ _ _ .none .none
  dma index := by
    rw [channel_initial, fresh.channels index]
    exact .mk _ _ _ _ .none

/-- Blocks at power-on differ in nothing but their clocks. -/
theorem alike_initial (reflexive : ∀ latch, idle latch latch) (settings : Settings) (memory : μ)
    {clock other : Clock} (clocks : lockstep.clocks clock other) :
    Alike lockstep idle (initial settings clock memory) (initial settings other memory) := by
  refine (isFresh_initial settings other memory).alike (fun index => ?_) clocks
  rw [timer_initial]
  exact reflexive {}

/-- The clock has issued all that it keeps and all that the block holds. -/
def IsNative (block : Block μ) : Prop :=
  Alike (.displaced block.clock.identity block.clock.identity 0) Eq block block

theorem IsNative.isOwn (native : block.IsNative) : block.clock.IsOwn := native.clocks.own

/-- The same block on its clock as others have left it. -/
theorem IsNative.onClock (native : block.IsNative) (same : clock.identity = block.clock.identity)
    (own : clock.IsOwn) : IsNative { block with clock } := by
  unfold IsNative
  dsimp only
  rw [same]
  exact { native with clocks := same ▸ own.isDisplaced }

theorem isNative_initial (own : clock.IsOwn) (settings : Settings) (memory : μ) :
    IsNative (initial settings clock memory) :=
  alike_initial (fun _ => rfl) settings memory own.isDisplaced

variable [Bus μ]

/-- Every command leaves the deadlines native. -/
theorem IsNative.perform (native : block.IsNative) (command : Command) :
    (block.perform command).Ensures fun (_, after) => after.IsNative := by
  have marches := Clock.Lockstep.displaced_marches block.clock.identity block.clock.identity 0
  have matched := perform_alike marches (fun _ => rfl) native command
  rintro ⟨response, after⟩ done
  generalize block.perform command = run at matched done
  cases matched with
  | fault reason signals => contradiction
  | value signals same =>
      cases done
      have identity : after.clock.identity = block.clock.identity := same.2.clocks.identity_eq
      change after.IsNative
      unfold IsNative
      rw [identity]
      exact same.2

theorem IsNative.performAll (native : block.IsNative) (commands : List Command) :
    (block.performAll commands).Ensures fun (_, after) => after.IsNative := by
  induction commands generalizing block with
  | nil => exact .pure native
  | cons command rest ih =>
      refine .bind (native.perform command) ?_
      rintro ⟨response, between⟩ native
      exact .bind (ih native) fun _ native => .pure native

/-- However a block was reached, its deadlines are native. -/
theorem Reached.isNative (reached : block.Reached) : block.IsNative := by
  induction reached with
  | create used created =>
      obtain ⟨-, rfl⟩ := of_create created
      exact isNative_initial used.isOwn _ _
  | perform _ command done native => exact native.perform command _ done
  | cancel _ done native =>
      obtain ⟨same, own⟩ := native.isOwn.cancel done
      exact native.onClock same own

end Block

end SocPeripherals
