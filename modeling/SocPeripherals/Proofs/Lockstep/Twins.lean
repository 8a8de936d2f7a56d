import SocPeripherals.Proofs.Block.Timely
import SocPeripherals.Proofs.Lockstep.Perform

/-!
# Twins

Two blocks that a timely host alone uses, each on its own clock, are twins if they are in lockstep.
All that waits on their clocks is then paired, so that their clocks can also be moved alike.
-/

namespace SocPeripherals

variable {lockstep : Clock.Lockstep} {clock other : Clock}

/-! ## What twins hold -/

/-- At most one deadline is held on either side. -/
theorem Deadline.single_rel {holder holderOther : Option Deadline}
    (holders : Option.Rel lockstep.deadlines holder holderOther) :
    Multiset.Rel lockstep.deadlines (single holder) (single holderOther) := by
  cases holders with
  | none => exact .zero
  | some deadlines => exact .cons deadlines .zero

theorem Deadline.all_rel {α : Type} {count : Nat} {held : α → Multiset Deadline}
    {parts twins : Vector α count} (paired : ∀ index : Fin count,
      Multiset.Rel lockstep.deadlines (held parts[index]) (held twins[index])) :
    Multiset.Rel lockstep.deadlines (all held parts) (all held twins) :=
  Finset.sum_hom_rel .zero fun index _ _ rest => (paired index).add rest

theorem Timer.Alike.held {idle : Latch → Latch → Prop} {timer twin : Timer}
    (alike : Alike lockstep idle timer twin) :
    Multiset.Rel lockstep.deadlines timer.held twin.held := by
  cases alike with
  | stopped => exact .zero
  | running _ _ _ _ _ deadlines => exact .cons deadlines .zero

theorem Uart.Alike.held {uart twin : Uart} (alike : Alike lockstep uart twin) :
    Multiset.Rel lockstep.deadlines uart.held twin.held := by
  obtain ⟨_, _, _, _, _, _, sending, breaking⟩ := alike
  refine .add (Deadline.single_rel ?_) (Deadline.single_rel breaking)
  cases sending with
  | none => exact .none
  | some sending => exact .some sending.2

theorem Dma.Channel.Alike.held {channel twin : Channel} (alike : Alike lockstep channel twin) :
    Multiset.Rel lockstep.deadlines channel.held twin.held :=
  Deadline.single_rel alike.dueAny

namespace Block

variable {μ : Type} {idle : Timer.Latch → Timer.Latch → Prop} {block twin : Block μ}
  {settings : Settings} {overdue : Bool} {shift : UInt64}

theorem Alike.held (alike : Alike lockstep idle block twin) :
    Multiset.Rel lockstep.deadlines block.held twin.held :=
  .add (.add (Deadline.all_rel fun index => (alike.timers index).held)
    (Deadline.all_rel fun index => (alike.uarts index).held))
    (Deadline.all_rel fun index => (alike.dma index).held)

end Block

/-! ## What waits on the clocks -/

namespace Clock

/-- Whatever waits on one of the clocks is paired with something that waits on the other. -/
structure Waits (lockstep : Lockstep) (clock other : Clock) : Prop where
  clocks : lockstep.clocks clock other
  forth : ∀ deadline ∈ clock.pending, ∃ paired ∈ other.pending, lockstep.deadlines deadline paired
  back : ∀ paired ∈ other.pending, ∃ deadline ∈ clock.pending, lockstep.deadlines deadline paired

namespace Waits

theorem distance_eq (waits : Waits lockstep clock other) {deadline paired : Deadline}
    (deadlines : lockstep.deadlines deadline paired) :
    other.distance paired.time = clock.distance deadline.time := by
  rw [lockstep.time_eq deadlines, Lockstep.distance_eq waits.clocks]

theorem nextDistance_eq (waits : Waits lockstep clock other) :
    other.nextDistance = clock.nextDistance := by
  cases next : clock.nextDistance with
  | none =>
      rw [nextDistance_eq_none_iff] at next ⊢
      refine List.eq_nil_iff_forall_not_mem.2 fun paired placed => ?_
      obtain ⟨deadline, placed, _⟩ := waits.back paired placed
      exact List.not_mem_nil (next ▸ placed)
  | some least =>
      rw [nextDistance_eq_some_iff] at next ⊢
      obtain ⟨⟨deadline, placed, distance⟩, first⟩ := next
      obtain ⟨paired, placed, deadlines⟩ := waits.forth deadline placed
      refine ⟨⟨paired, placed, (waits.distance_eq deadlines).trans distance⟩, ?_⟩
      intro paired placed
      obtain ⟨deadline, placed, deadlines⟩ := waits.back paired placed
      rw [waits.distance_eq deadlines]
      exact first deadline placed

end Waits

/-- A move reaches something that waits on the one clock just if it does on the other. -/
theorem Waits.any_hasReached_eq (waits : Waits lockstep clock other) {cycles : UInt64}
    (moved : lockstep.clocks (clock.moved cycles) (other.moved cycles)) :
    (other.pending.any fun paired => (other.moved cycles).hasReached paired.time)
      = clock.pending.any fun deadline => (clock.moved cycles).hasReached deadline.time := by
  rw [Bool.eq_iff_iff, List.any_eq_true, List.any_eq_true]
  constructor
  · rintro ⟨paired, placed, reached⟩
    obtain ⟨deadline, placed, deadlines⟩ := waits.back paired placed
    exact ⟨deadline, placed, (Lockstep.hasReached_eq moved deadlines).symm.trans reached⟩
  · rintro ⟨deadline, placed, reached⟩
    obtain ⟨paired, placed, deadlines⟩ := waits.forth deadline placed
    exact ⟨paired, placed, (Lockstep.hasReached_eq moved deadlines).trans reached⟩

/-- Clocks that stand apart and have as much waiting are moved alike. -/
theorem Waits.moves {shift : UInt64} (waits : Waits (.apart shift) clock other) (cycles : UInt64) :
    Run.Matches (ε := Event)
      (fun (reached, clock) (reachedOther, other) =>
        reached = reachedOther ∧ (Lockstep.apart shift).clocks clock other)
      (liftM (clock.increment cycles)) (liftM (other.increment cycles)) := by
  by_cases short : cycles < horizon
  · have moved : (Lockstep.apart shift).clocks (clock.moved cycles) (other.moved cycles) := by
      change other.now + cycles = clock.now + cycles + shift
      rw [show other.now = clock.now + shift from waits.clocks]
      grind
    rw [increment_of_lt short, increment_of_lt short]
    exact .value [] ⟨(waits.any_hasReached_eq moved).symm, moved⟩
  · rw [increment, if_neg short, increment, if_neg short]
    exact .fault _ []

end Clock

/-! ## Twins at work -/

namespace Block

variable {μ : Type} [Bus μ] {idle : Timer.Latch → Timer.Latch → Prop} {block twin : Block μ}
  {settings : Settings} {overdue : Bool} {shift : UInt64}

/-- The blocks are in lockstep, whatever their stopped timers have latched, and nobody else uses
their clocks. -/
structure Twins (settings : Settings) (overdue : Bool) (shift : UInt64) (block twin : Block μ) :
    Prop where
  alike : Alike (.apart shift) (fun _ _ => True) block twin
  first : Orderly settings true overdue block
  second : Orderly settings true overdue twin

omit [Bus μ] in
/-- Just what the block holds and has not been reached is pending. -/
theorem Orderly.mem_pending (orderly : Orderly settings true overdue block) {deadline : Deadline} :
    deadline ∈ block.clock.pending ↔
      deadline ∈ block.held ∧ block.clock.hasReached deadline.time = false := by
  constructor
  · intro placed
    have near := orderly.upcoming rfl deadline placed
    have ahead := (Clock.hasReached_eq_false_iff near.2).2 near.1
    exact ⟨orderly.owes rfl deadline placed ahead, ahead⟩
  · rintro ⟨known, ahead⟩
    exact orderly.keeps deadline known ahead

omit [Bus μ] in
theorem Twins.waits (twins : Twins settings overdue shift block twin) :
    Clock.Waits (.apart shift) block.clock twin.clock where
  clocks := twins.alike.clocks
  forth deadline placed := by
    obtain ⟨known, ahead⟩ := twins.first.mem_pending.1 placed
    obtain ⟨paired, known, deadlines⟩ := Multiset.exists_mem_of_rel_of_mem twins.alike.held known
    rw [← Clock.Lockstep.hasReached_eq twins.alike.clocks deadlines] at ahead
    exact ⟨paired, twins.second.mem_pending.2 ⟨known, ahead⟩, deadlines⟩
  back paired placed := by
    obtain ⟨known, ahead⟩ := twins.second.mem_pending.1 placed
    obtain ⟨deadline, known, deadlines⟩ :=
      Multiset.exists_mem_of_rel_of_mem (Multiset.rel_flip.2 twins.alike.held) known
    rw [Clock.Lockstep.hasReached_eq twins.alike.clocks deadlines] at ahead
    exact ⟨deadline, twins.first.mem_pending.2 ⟨known, ahead⟩, deadlines⟩

/-- The same answers, with twins. -/
abbrev SameTwins {α : Type} (settings : Settings) (overdue : α → Bool) (shift : UInt64)
    (first second : α × Block μ) : Prop :=
  first.1 = second.1 ∧ Twins settings (overdue first.1) shift first.2 second.2

omit [Bus μ] in
/-- Blocks that do the same and stay orderly stay twins. -/
theorem sameTwins {α : Type} {left : α → Bool} {run runOther : Run Event (α × Block μ)}
    (matched : run.Matches (Same (.apart shift) fun _ _ => True) runOther)
    (ensured : run.Ensures fun (answer, after) => Orderly settings true (left answer) after)
    (ensuredOther : runOther.Ensures fun (answer, after) =>
      Orderly settings true (left answer) after) :
    run.Matches (SameTwins settings left shift) runOther := by
  refine (matched.and ensured ensuredOther).imp ?_
  rintro ⟨answer, after⟩ ⟨_, afterOther⟩ ⟨⟨same, alike⟩, orderly, orderlyOther⟩
  cases same
  exact ⟨rfl, alike, orderly, orderlyOther⟩

theorem Twins.tick (twins : Twins settings false shift block twin) (cycles : UInt64) :
    (block.tick cycles).Matches (SameTwins settings (fun _ => false) shift) (twin.tick cycles) :=
  sameTwins (tick_alike (fun _ => True.intro) twins.alike (twins.waits.moves cycles))
    (twins.first.tick cycles) (twins.second.tick cycles)

theorem Twins.hop (twins : Twins settings false shift block twin) (steps : Nat) (left : UInt64)
    (polled : Bool) :
    (Block.hop steps block left polled []).Matches (SameTwins settings (fun _ => false) shift)
      (Block.hop steps twin left polled []) :=
  hop_matches (fun twins => twins.waits.nextDistance_eq) Twins.tick steps twins left polled

theorem Twins.perform (twins : Twins settings overdue shift block twin) {command : Command}
    (timely : command.IsTimely true overdue) :
    (block.perform command).Matches
      (SameTwins settings (fun response => command.leaves overdue response) shift)
      (twin.perform command) := by
  refine sameTwins ?_ (twins.first.perform timely) (twins.second.perform timely)
  have reflexive (latch : Timer.Latch) : True := True.intro
  by_cases at_once : command.IsLocal
  · exact perform_alike_of_isLocal reflexive twins.alike at_once
  · cases command with
    | increment cycles =>
        cases timely
        exact answer_alike Response.reached
          (increment_alike twins.alike (twins.waits.moves cycles))
    | tick cycles =>
        cases timely
        exact answer_alike Response.reached
          ((twins.tick cycles).imp fun _ _ same => ⟨same.1, same.2.alike⟩)
    | advance cycles =>
        cases timely
        exact answer_alike Response.reached
          ((twins.hop _ cycles false).imp fun _ _ same => ⟨same.1, same.2.alike⟩)
    | placeDeadline cycles => cases timely
    | _ => exact absurd trivial at_once

theorem Twins.restore (twins : Twins settings overdue shift block twin)
    {saved savedOther : Snapshot} (own : saved.IsOrderly settings.dmaCycles)
    (ownOther : savedOther.IsOrderly settings.dmaCycles) (same : saved.Alike savedOther) :
    (block.perform (.restore saved)).Matches (SameTwins settings (fun _ => overdue) shift)
      (twin.perform (.restore savedOther)) :=
  sameTwins
    (answer_alike Response.accepted (restore_alike (fun _ => True.intro) twins.alike same))
    (.bind (twins.first.restore own) fun _ kept => .pure kept)
    (.bind (twins.second.restore ownOther) fun _ kept => .pure kept)

end Block

end SocPeripherals
