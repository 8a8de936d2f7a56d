import SocPeripherals.Proofs.Block.Act
import SocPeripherals.Proofs.Block.Hop

/-!
# What commands keep

Whatever every act of a part keeps, and every move of the clock, every command keeps, however often
the block is polled on the way.
-/

namespace SocPeripherals

namespace Block

variable {μ : Type} {block after : Block μ}

/-- A block that could be created is one at power-on. -/
theorem of_create {settings : Settings} {clock : Clock} {memory : μ}
    (created : create settings clock memory = .ok block) :
    Storage.reserve settings.uartCapacity = .ok () ∧ block = initial settings clock memory := by
  obtain ⟨_, room, same⟩ := Run.except_bind_eq_ok.1 created
  exact ⟨room, (Except.ok.inj same).symm⟩

/-- Where the clock has moved on, nothing else has changed. -/
theorem of_increment {cycles : UInt64} {reached : Bool}
    (done : block.increment cycles = .ok (reached, after)) :
    ∃ clock, block.clock.increment cycles = .ok (reached, clock) ∧
      after = { block with clock } := by
  obtain ⟨⟨reached', clock⟩, moving, same⟩ := Run.except_bind_eq_ok.1 done
  cases same
  exact ⟨clock, moving, rfl⟩

variable [Bus μ] {restorable : Snapshot → Prop} {kept : Block μ → Prop}

/-- Acts that restore nothing but what may be restored keep it, and moves of the clock do. -/
structure Lasting (restorable : Snapshot → Prop) (kept : Block μ → Prop) : Prop where
  act {block after : Block μ} : kept block → Act restorable block after → kept after
  moved {block after : Block μ} {cycles : UInt64} {reached : Bool} : kept block →
    block.increment cycles = .ok (reached, after) → kept after

/-- The command is about the block and its clock, not about somebody else who uses the clock. -/
def Command.IsOwn : Command → Prop
  | .placeDeadline _ => False
  | _ => True

namespace Lasting

theorem acts (lasting : Lasting restorable kept) (known : kept block)
    (acts : Acts restorable block after) : kept after := by
  induction acts with
  | refl => exact known
  | tail _ act known => exact lasting.act known act

theorem increment (lasting : Lasting restorable kept) (known : kept block) (cycles : UInt64) :
    Run.Ensures (ε := Event) (liftM (block.increment cycles)) fun (_, after) => kept after :=
  (Run.Ensures.except _).imp fun _ done => lasting.moved known done

theorem tick (lasting : Lasting restorable kept) (known : kept block) (cycles : UInt64) :
    (block.tick cycles).Ensures fun (_, after) => kept after := by
  refine .bind (lasting.increment known cycles) ?_
  rintro ⟨reached, between⟩ known
  cases reached with
  | true =>
      refine .bind (poll_acts restorable between) fun after acts => .pure ?_
      exact lasting.acts known acts
  | false => exact .pure known

/-- A command keeps it, unless it is about somebody else or restores what may not be. -/
theorem perform (lasting : Lasting restorable kept) (known : kept block) {command : Command}
    (own : command.IsOwn) (respects : command.Respects restorable) :
    (block.perform command).Ensures fun (_, after) => kept after := by
  by_cases at_once : command.IsLocal
  · refine (perform_acts restorable at_once respects block).imp ?_
    rintro ⟨response, after⟩ acts
    exact lasting.acts known acts
  · cases command with
    | increment cycles => exact .bind (lasting.increment known cycles) fun _ known => .pure known
    | tick cycles => exact .bind (lasting.tick known cycles) fun _ known => .pure known
    | advance cycles =>
        have advances : (block.advance cycles).Ensures fun (_, after) => kept after :=
          hop_keeps lasting.tick _ known cycles false
        exact .bind advances fun _ known => .pure known
    | placeDeadline cycles => exact own.elim
    | _ => exact absurd trivial at_once

/-- A run of commands that restore only what may be restored keeps it, if it is not about the
clock. -/
theorem performAll (lasting : Lasting restorable kept)
    (anyClock : ∀ {block : Block μ} (clock : Clock), kept block → kept { block with clock })
    {commands : List Command} (respects : ∀ command ∈ commands, command.Respects restorable)
    (known : kept block) : (block.performAll commands).Ensures fun (_, after) => kept after := by
  induction commands generalizing block with
  | nil => exact .pure known
  | cons command rest ih =>
      have performs : (block.perform command).Ensures fun (_, after) => kept after := by
        have respects := respects command List.mem_cons_self
        cases command with
        | placeDeadline cycles => exact .bind (.except _) fun _ _ => .pure (anyClock _ known)
        | _ => exact lasting.perform known trivial respects
      refine .bind performs ?_
      rintro ⟨response, between⟩ known
      have later (other : Command) (listed : other ∈ rest) : other.Respects restorable :=
        respects other (List.mem_cons_of_mem _ listed)
      exact .bind (ih later known) fun _ known => .pure known

end Lasting

end Block

end SocPeripherals
