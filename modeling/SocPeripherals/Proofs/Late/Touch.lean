import SocPeripherals.Proofs.Block.Act
import SocPeripherals.Proofs.Dma.Completion
import SocPeripherals.Proofs.Dma.Engine

/-!
# Commands for a channel

The host comes to a channel by an access to its registers or by a request for a transfer. Either way
the channel catches up first, and what it tells on the way is heard.
-/

namespace SocPeripherals

namespace Block

variable {μ : Type} [Bus μ] {block after : Block μ} {index : Fin Dma.channelCount}

/-- The channel whose registers are at an address. -/
def channelAt? (address : UInt32) : Option (Fin Dma.channelCount) :=
  if windowSize ≤ address then none
  else
    match route? address with
    | some (.dma, offset) => (Dma.route? offset).map Prod.fst
    | _ => none

/-- The command is for a channel: it reads or writes one of its registers, or begins a transfer. -/
def Command.Touches (index : Fin Dma.channelCount) : Command → Prop
  | .read _ address | .write _ address _ => channelAt? address = some index
  | .startTransfer channel _ _ _ _ => Dma.channel? channel = some index
  | _ => False

theorem Command.Touches.isLocal {command : Command} (touches : command.Touches index) :
    command.IsLocal ∧ command.Respects fun _ => False := by
  cases command <;> first | exact ⟨trivial, trivial⟩ | exact touches.elim

omit [Bus μ] in
/-- What the engine does is heard, if it comes to an end. -/
theorem onDma_of_ok {α : Type} {answer : α}
    {action : Dma.Attached μ → Clock → Run Signal (α × Dma.Attached μ × Clock)}
    (done : (block.onDma action).outcome = .ok (answer, after)) :
    ∃ attached clock, (action ⟨block.dma, block.memory⟩ block.clock).outcome
        = .ok (answer, attached, clock) ∧
      after = { block with
        clock
        dma := attached.dma
        memory := attached.memory
        controller := (block.controller.hearAll
          (action ⟨block.dma, block.memory⟩ block.clock).signals).value } := by
  obtain ⟨⟨⟨answer, attached, clock⟩, controller⟩, relayed, same⟩ := Run.outcome_bind_eq_ok.1 done
  cases same
  unfold Interrupt.Controller.relay at relayed
  dsimp only at relayed
  cases ran : (action ⟨block.dma, block.memory⟩ block.clock).outcome with
  | error fault =>
      rw [ran] at relayed
      contradiction
  | ok value =>
      rw [ran] at relayed
      cases relayed
      exact ⟨attached, clock, rfl, rfl⟩

theorem mem_channelAt? {address : UInt32} (here : channelAt? address = some index) :
    ¬ windowSize ≤ address ∧ ∃ offset rest, route? address = some (.dma, offset) ∧
      Dma.route? offset = some (index, rest) := by
  unfold channelAt? at here
  split at here
  next => contradiction
  next inside =>
    refine ⟨inside, ?_⟩
    split at here
    next offset routed =>
      obtain ⟨⟨_, rest⟩, found, rfl⟩ := Option.map_eq_some_iff.1 here
      exact ⟨offset, rest, routed, found⟩
    next => contradiction

omit [Bus μ] in
/-- What is done with a channel that is looked at is heard. -/
theorem onChannel_looks {α : Type} {run : Run Signal (α × Dma.Channel × Clock × μ)}
    {looks : Dma.Channel → μ → List Signal → Prop}
    {action : Dma.Attached μ → Clock → Run Signal (α × Dma.Attached μ × Clock)} {answer : α}
    (acts : action ⟨block.dma, block.memory⟩ block.clock
      = Prod.map id (Dma.Attached.put ⟨block.dma, block.memory⟩ index) <$> run)
    (looked : ∀ value, run.outcome = .ok value → looks value.2.1 value.2.2.2 run.signals)
    (done : (block.onDma action).outcome = .ok (answer, after)) :
    ∃ channel clock memory signals, looks channel memory signals ∧
      after = { block with
        clock, memory
        dma := block.dma.set index channel
        controller := (block.controller.hearAll signals).value } := by
  obtain ⟨attached, clock, acted, rfl⟩ := onDma_of_ok done
  rw [acts, Run.outcome_map] at acted
  obtain ⟨value, ran, same⟩ := Run.except_map_eq_ok.1 acted
  cases same
  rw [acts, Run.signals_map]
  exact ⟨_, _, _, run.signals, looked value ran, rfl⟩

/-- What a command for a channel does: it looks at the channel, and what it tells is heard. -/
theorem touch_cases {command : Command} {response : Response} (touches : command.Touches index)
    (done : (block.perform command).outcome = .ok (response, after)) :
    ∃ channel clock memory signals,
      block.dma.channels[index].Looks block.clock block.memory channel memory signals ∧
      after = { block with
        clock, memory
        dma := block.dma.set index channel
        controller := (block.controller.hearAll signals).value } := by
  cases command with
  | read width address =>
      obtain ⟨inside, offset, rest, routed, found⟩ := mem_channelAt? touches
      obtain ⟨⟨answer, _⟩, reading, same⟩ := Run.outcome_bind_eq_ok.1 done
      cases same
      unfold Block.read at reading
      rw [if_neg inside, routed] at reading
      obtain ⟨⟨value, _⟩, part, same⟩ := Run.outcome_bind_eq_ok.1 reading
      cases same
      refine onChannel_looks (Dma.Attached.read_eq _ block.clock width found) ?_ part
      rintro _ ⟨⟩
      exact block.dma.channels[index].read_looks block.clock block.memory width rest
  | write width address value =>
      obtain ⟨inside, offset, rest, routed, found⟩ := mem_channelAt? touches
      obtain ⟨⟨answer, _⟩, writing, same⟩ := Run.outcome_bind_eq_ok.1 done
      cases same
      unfold Block.write at writing
      rw [if_neg inside, routed] at writing
      obtain ⟨⟨_, _⟩, part, same⟩ := Run.outcome_bind_eq_ok.1 writing
      cases same
      refine onChannel_looks (Dma.Attached.write_eq _ block.clock width found value) ?_ part
      rintro _ ended
      rw [Run.outcome_map] at ended
      obtain ⟨result, wrote, same⟩ := Run.except_map_eq_ok.1 ended
      cases same
      rw [Run.signals_map]
      exact Dma.Channel.write_looks wrote
  | startTransfer number source target count control =>
      obtain ⟨⟨answer, _⟩, starting, same⟩ := Run.outcome_bind_eq_ok.1 done
      cases same
      refine onChannel_looks (Dma.Attached.start_eq _ block.clock touches ..) ?_ starting
      exact fun value started => Dma.Channel.start_looks started
  | _ => exact touches.elim

end Block

end SocPeripherals
