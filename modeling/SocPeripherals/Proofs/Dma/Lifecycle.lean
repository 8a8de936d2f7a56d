import SocPeripherals.Bus.Ram
import SocPeripherals.Dma.Engine
import SocPeripherals.Proofs.Dma.Turns

/-!
# The lives of both channels

However an engine is used from power-on, each of its channels takes its turns in order: a transfer
begins where none is under way, and ends once or is cleared away. The control registers show the
last turn, the count register what is left of a transfer under way, and an interrupt has been asked
for as often as a transfer has ended. Step by step this is carried from the turns of one operation
to those of a whole history.
-/

namespace SocPeripherals

namespace Dma

variable {μ : Type} [Bus μ]

/-- What can be done to an engine. -/
inductive Command where
  | read (width : Width) (address : UInt32)
  | write (width : Width) (address value : UInt32)
  | start (channel : Nat) (source target count control : UInt32)
  | increment (cycles : UInt64)
  | poll
  | reset
deriving DecidableEq, Repr

namespace Attached

/-- Carries out a command. -/
def perform (attached : Attached μ) (clock : Clock) : Command → Run Signal (Attached μ × Clock)
  | .read width address => do
      let (_, dma, clock, memory) ← attached.dma.read clock attached.memory width address
      return (⟨dma, memory⟩, clock)
  | .write width address value => do
      let (dma, clock, memory) ← attached.dma.write clock attached.memory width address value
      return (⟨dma, memory⟩, clock)
  | .start channel source target count control => do
      let (_, dma, clock, memory) ←
        attached.dma.start clock attached.memory channel source target count control
      return (⟨dma, memory⟩, clock)
  | .increment cycles => do
      let (_, clock) ← clock.increment cycles
      return (attached, clock)
  | .poll => do
      let (dma, clock, memory) ← attached.dma.poll clock attached.memory
      return (⟨dma, memory⟩, clock)
  | .reset =>
      let (dma, clock) := attached.dma.reset clock
      pure ({ attached with dma }, clock)

/-- The turns that a channel takes in a command. The second channel is polled after the first. -/
def turns (attached : Attached μ) (clock : Clock) (index : Fin channelCount) : Command → List Turn
  | .read _ address =>
      match route? address with
      | none => []
      | some (there, _) =>
          if index = there then
            attached.dma.channels[there].catchUpTurns clock attached.memory
          else []
  | .write width address value =>
      match route? address with
      | none => []
      | some (there, offset) =>
          if index = there then
            attached.dma.channels[there].launchTurns clock attached.memory
              (.store width offset value)
          else []
  | .start number source target count control =>
      match channel? number with
      | none => []
      | some there =>
          if index = there then
            attached.dma.channels[there].launchTurns clock attached.memory
              (.host source target count control)
          else []
  | .increment _ => []
  | .poll =>
      let (dma, later, memory) := (attached.dma.pollChannel clock attached.memory 0).value
      (if index = 0 then attached.dma.channels[0].pollTurns clock attached.memory else [])
        ++ if index = 1 then dma.channels[1].pollTurns later memory else []
  | .reset => [.cleared]

end Attached

/-- What has become of an engine since power-on: the turns that each channel has taken, and what
has been signalled. Between the commands the host may change its memory, and others may use the
clock. -/
inductive History (cyclesPerUnit : UInt64) :
    Attached μ → Clock → (Fin channelCount → List Turn) → List Signal → Prop where
  | start (clock : Clock) (memory : μ) :
      History cyclesPerUnit ⟨initial cyclesPerUnit, memory⟩ clock (fun _ => []) []
  | perform {attached after : Attached μ} {clock later : Clock}
      {turns : Fin channelCount → List Turn} {signals : List Signal}
      (history : History cyclesPerUnit attached clock turns signals) (command : Command)
      (done : (attached.perform clock command).outcome = .ok (after, later)) :
      History cyclesPerUnit after later
        (fun index => turns index ++ attached.turns clock index command)
        (signals ++ (attached.perform clock command).signals)
  | aside {attached : Attached μ} {clock : Clock} {turns : Fin channelCount → List Turn}
      {signals : List Signal} (history : History cyclesPerUnit attached clock turns signals)
      (later : Clock) (memory : μ) :
      History cyclesPerUnit { attached with memory } later turns signals

/-- The channel of a number has taken its turns, and its interrupts are among what has been
signalled. -/
structure Account (index : Fin channelCount) (channel : Channel) (turns : List Turn)
    (signals : List Signal) : Prop where
  chain : (.cleared :: turns).IsChain Turn.MayPrecede
  lives : channel.Lives (turns.getLastD .cleared)
  origin : channel.source = Interrupt.dmaSources[index]
  resets : channel.bank.resets = (Bank.initial registers).resets
  told : signals.count (.interrupt Interrupt.dmaSources[index]) = turns.countP Turn.isEnd

/-- Each channel has taken its turns. -/
def Accounts (dma : Dma) (turns : Fin channelCount → List Turn) (signals : List Signal) : Prop :=
  ∀ index : Fin channelCount, Account index dma.channels[index] (turns index) signals

variable {dma : Dma} {turns : Fin channelCount → List Turn} {signals further : List Signal}
  {index : Fin channelCount} {after : Channel} {more : List Turn}

omit [Bus μ] in
theorem lives_initial (channel : Channel) (idle : channel.transfer = none)
    (power : channel.bank = Bank.initial registers) : channel.Lives .cleared := by
  have clear : channel.bank.get controlIndex = 0 := by
    rw [power, Bank.get_initial]
    rfl
  constructor
  · exact iff_of_false (by simp [Channel.isActive, idle]) Turn.noConfusion
  · rw [Channel.Shows, clear]
    exact iff_of_false (by decide) Turn.noConfusion
  · rw [Channel.Shows, clear]
    exact iff_of_false (by decide) Turn.noConfusion
  · intro transfer active
    exact absurd active (by simp [idle])

theorem accounts_initial (cyclesPerUnit : UInt64) :
    Accounts (initial cyclesPerUnit) (fun _ => []) [] := by
  intro index
  rw [initial, Parts.getElem_ofFn]
  exact ⟨.singleton _, lives_initial _ rfl rfl, rfl, rfl, rfl⟩

theorem dmaSources_inj {index other : Fin channelCount}
    (same : Interrupt.dmaSources[index] = Interrupt.dmaSources[other]) : index = other := by
  revert index other
  decide

/-- The requests for an interrupt among those that are for one source. -/
theorem count_interrupt {source origin : UInt8} {count : Nat}
    (told : signals.filterMap Signal.interrupt? = List.replicate count origin) :
    signals.count (.interrupt source) = if source = origin then count else 0 := by
  have asked : signals.count (.interrupt source)
      = (signals.filterMap Signal.interrupt?).count source := by
    rw [List.count_filterMap, List.count]
    refine List.countP_congr fun signal _ => ?_
    cases signal <;> simp [Signal.interrupt?]
  rw [asked, told]
  split
  next same => rw [same, List.count_replicate_self]
  next apart => exact List.count_eq_zero.2 fun listed => apart (List.eq_of_mem_replicate listed)

/-- One channel takes its turns. -/
theorem Accounts.act (accounts : Accounts dma turns signals)
    (takes : Channel.Takes ((turns index).getLastD .cleared) dma.channels[index].source more after
      further)
    (resets : after.bank.resets = dma.channels[index].bank.resets) :
    Accounts (dma.set index after) (fun other => turns other ++ if other = index then more else [])
      (signals ++ further) := by
  have told := takes.told
  rw [List.map_const', ← List.countP_eq_length_filter, (accounts index).origin] at told
  intro other
  have account := accounts other
  by_cases same : other = index
  · subst same
    have here : (dma.set other after).channels[other] = after := Parts.getElem_set_self ..
    rw [here]
    dsimp only
    rw [if_pos rfl]
    constructor
    · exact isChain_append account.chain takes.chain
    · simpa using takes.lives
    · exact takes.origin.trans account.origin
    · exact resets.trans account.resets
    · rw [List.count_append, List.countP_append, account.told, count_interrupt told, if_pos rfl]
  · have there : (dma.set index after).channels[other] = dma.channels[other] :=
      Parts.getElem_set_of_ne _ _ (Ne.symm same)
    have unasked : further.count (.interrupt Interrupt.dmaSources[other]) = 0 := by
      rw [count_interrupt told, if_neg (mt dmaSources_inj same)]
    rw [there]
    dsimp only
    rw [if_neg same, List.append_nil]
    exact { account with told := by rw [List.count_append, unasked, Nat.add_zero, account.told] }

/-- No channel takes a turn. -/
theorem Accounts.rest (accounts : Accounts dma turns signals)
    (quiet : further.filterMap Signal.interrupt? = []) :
    Accounts dma (fun index => turns index ++ []) (signals ++ further) := by
  intro index
  have none : further.filterMap Signal.interrupt? = List.replicate 0 0 := quiet
  have unasked : further.count (.interrupt Interrupt.dmaSources[index]) = 0 := by
    rw [count_interrupt none, ite_self]
  simp only [List.append_nil]
  exact { accounts index with
    told := by rw [List.count_append, unasked, Nat.add_zero, (accounts index).told] }

/-! ## Commands -/

variable {attached : Attached μ}

theorem read_accounts (accounts : Accounts attached.dma turns signals) (clock : Clock)
    (width : Width) (address : UInt32) :
    let run := attached.dma.read clock attached.memory width address
    Accounts run.value.2.1
      (fun index => turns index ++ attached.turns clock index (.read width address))
      (signals ++ run.signals) := by
  dsimp only [read, Attached.turns]
  cases route? address with
  | none =>
      refine accounts.rest ?_
      rfl
  | some there =>
      obtain ⟨index, offset⟩ := there
      have resets := (Channel.read_step attached.dma.channels[index] clock attached.memory width
        offset).resets
      have takes := Channel.read_takes (accounts index).lives clock attached.memory width offset
      dsimp only
      rw [Traced.signals_bind, Traced.value_bind, Traced.signals_pure, List.append_nil]
      exact accounts.act takes resets

theorem write_accounts (accounts : Accounts attached.dma turns signals) (clock : Clock)
    (width : Width) (address value : UInt32) :
    (attached.dma.write clock attached.memory width address value).Tells
      fun (after, _, _) further => Accounts after
        (fun index => turns index ++ attached.turns clock index (.write width address value))
        (signals ++ further) := by
  dsimp only [write, Attached.turns]
  cases route? address with
  | none =>
      refine .bind (.signal _) ?_
      rintro _ _ rfl
      apply Run.Tells.pure
      refine accounts.rest ?_
      rfl
  | some there =>
      obtain ⟨index, offset⟩ := there
      have takes := Channel.write_takes (accounts index).lives clock attached.memory width offset
        value
      have step := Channel.write_step attached.dma.channels[index] clock attached.memory width
        offset value
      dsimp only
      refine .conclude (takes.and step) ?_
      rintro ⟨after, later, memory⟩ further ⟨takes, step⟩
      exact ⟨_, rfl, accounts.act takes step.resets⟩

theorem start_accounts (accounts : Accounts attached.dma turns signals) (clock : Clock)
    (number : Nat) (source target count control : UInt32) :
    (attached.dma.start clock attached.memory number source target count control).Tells
      fun (_, after, _, _) further => Accounts after
        (fun index => turns index
          ++ attached.turns clock index (.start number source target count control))
        (signals ++ further) := by
  dsimp only [start, Attached.turns]
  cases channel? number with
  | none =>
      apply Run.Tells.pure
      exact accounts.rest rfl
  | some index =>
      have takes := Channel.start_takes (accounts index).lives clock attached.memory source target
        count control
      have step := Channel.start_step attached.dma.channels[index] clock attached.memory source
        target count control
      dsimp only
      refine .conclude (takes.and step) ?_
      rintro ⟨answer, after, later, memory⟩ further ⟨takes, step⟩
      exact ⟨_, rfl, accounts.act takes step.resets⟩

theorem pollChannel_accounts (accounts : Accounts dma turns signals) (clock : Clock) (memory : μ)
    (index : Fin channelCount) :
    let run := dma.pollChannel clock memory index
    Accounts run.value.1
      (fun other => turns other ++
        if other = index then dma.channels[index].pollTurns clock memory else [])
      (signals ++ run.signals) := by
  have takes := Channel.poll_takes (accounts index).lives clock memory
  have resets := (Channel.poll_step dma.channels[index] clock memory).1.resets
  dsimp only [pollChannel]
  rw [Traced.signals_bind, Traced.value_bind, Traced.signals_pure, List.append_nil]
  exact accounts.act takes resets

theorem resetChannel_accounts (accounts : Accounts dma turns signals) (clock : Clock)
    (index : Fin channelCount) :
    Accounts (dma.resetChannel clock index).1
      (fun other => turns other ++ if other = index then [.cleared] else []) signals := by
  have acts := accounts.act (Channel.reset_takes (accounts index).resets _ clock) rfl
  rw [List.append_nil] at acts
  exact acts

/-- Every command lets the channels take the turns that it is said to take. -/
theorem perform_accounts (accounts : Accounts attached.dma turns signals) (clock : Clock)
    (command : Command) :
    (attached.perform clock command).Tells fun (after, _) further =>
      Accounts after.dma (fun index => turns index ++ attached.turns clock index command)
        (signals ++ further) := by
  cases command with
  | read width address =>
      refine .conclude (.traced _) ?_
      rintro _ _ ⟨rfl, rfl⟩
      exact ⟨_, rfl, read_accounts accounts clock width address⟩
  | write width address value =>
      refine .conclude (write_accounts accounts clock width address value) ?_
      rintro ⟨after, later, memory⟩ further told
      exact ⟨_, rfl, told⟩
  | start number source target count control =>
      refine .conclude (start_accounts accounts clock number source target count control) ?_
      rintro ⟨answer, after, later, memory⟩ further told
      exact ⟨_, rfl, told⟩
  | increment cycles =>
      refine .bind (.except _) ?_
      rintro ⟨reached, later⟩ _ ⟨-, rfl⟩
      exact .pure (accounts.rest rfl)
  | poll =>
      refine .conclude (.traced _) ?_
      rintro _ _ ⟨rfl, rfl⟩
      have first := pollChannel_accounts accounts clock attached.memory 0
      have second := pollChannel_accounts first
        (attached.dma.pollChannel clock attached.memory 0).value.2.1
        (attached.dma.pollChannel clock attached.memory 0).value.2.2 1
      simp only [List.append_assoc] at second
      exact ⟨_, rfl, second⟩
  | reset =>
      apply Run.Tells.pure
      have both := resetChannel_accounts (resetChannel_accounts accounts clock 0)
        (attached.dma.resetChannel clock 0).2 1
      rw [List.append_nil]
      intro index
      have once : ((if index = 0 then [.cleared] else []) ++ if index = 1 then [.cleared] else [])
          = [Turn.cleared] := by
        revert index
        decide
      have account := both index
      simp only [List.append_assoc, once] at account
      exact account

theorem History.accounts {cyclesPerUnit : UInt64} {clock : Clock}
    (history : History cyclesPerUnit attached clock turns signals) :
    Accounts attached.dma turns signals := by
  induction history with
  | start clock memory => exact accounts_initial cyclesPerUnit
  | perform _ command done accounts => exact perform_accounts accounts _ command _ done
  | aside _ later memory accounts => exact accounts

/-- However an engine is used, the start bit of a channel and its transfer follow its last turn, as
the error bit does, which is written by no access but with a request; each transfer that begins ends
at most once, and the interrupt is asked for as often as a transfer has ended. -/
theorem lifecycle_of_history {cyclesPerUnit : UInt64} {clock : Clock}
    (history : History cyclesPerUnit attached clock turns signals) (index : Fin channelCount) :
    let channel := attached.dma.channels[index]
    (.cleared :: turns index).IsChain Turn.MayPrecede ∧
      channel.Lives ((turns index).getLastD .cleared) ∧
      signals.count (.interrupt Interrupt.dmaSources[index]) = (turns index).countP Turn.isEnd ∧
      (∀ width address value,
        (channel.write clock attached.memory width address value).Ensures fun (after, _, _) =>
          .begun ∉ channel.freshTurns clock attached.memory (.store width address value) →
            (after.Shows errorBit ↔
              (channel.catchUp clock attached.memory).value.1.Shows errorBit)) ∧
      ∀ source target count control,
        (channel.start clock attached.memory source target count control).Ensures fun (answer, _) =>
          answer = .ok () ↔
            .begun ∈ channel.freshTurns clock attached.memory
              (.host source target count control) := by
  intro channel
  have account := history.accounts index
  refine ⟨account.chain, account.lives, account.told, ?_, ?_⟩
  · intro width address value
    exact channel.write_error clock attached.memory width address value
  · intro source target count control
    exact channel.start_accepts clock attached.memory source target count control

/-- An engine without memory is asked to move a byte at once. -/
theorem lifecycle_of_history_refused :
    ∃ (after : Attached Ram) (later : Clock) (turns : Fin channelCount → List Turn)
      (signals : List Signal), History 0 after later turns signals ∧
        turns 0 = [.begun, .ended true] ∧ after.dma.channels[0].Shows errorBit ∧
          signals.count (.interrupt Interrupt.dmaSources[0]) = 1 := by
  have begins : ∃ after later, (Attached.perform ⟨initial 0, Ram.empty⟩ {}
      (.start 0 0 0 1 0)).outcome = .ok (after, later) := ⟨_, _, rfl⟩
  obtain ⟨after, later, done⟩ := begins
  have history := (History.start {} Ram.empty).perform _ done
  obtain ⟨-, lives, told, -⟩ := lifecycle_of_history history 0
  refine ⟨after, later, _, _, history, rfl, ?_, ?_⟩
  · exact lives.error.2 rfl
  · exact told.trans rfl

end Dma

end SocPeripherals
