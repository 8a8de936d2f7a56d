import SocPeripherals.Proofs.Consistency.Devices
import SocPeripherals.Proofs.Dma.Engine
import SocPeripherals.Proofs.Dma.Lifecycle

/-!
# What an engine can become

What every operation of a channel keeps, the engine keeps for both of its channels, whatever is
asked of it. So the start bit of a channel is set just while a transfer is under way, as long as an
engine takes over only what such engines have saved.
-/

namespace SocPeripherals

namespace Dma

variable {μ : Type} [Bus μ]

/-! ## What every operation keeps -/

section Kept

variable {restorable : Snapshot → Prop} {holds : Channel → Prop} {dma : Dma}
  {attached : Attached μ}

/-- Every operation of a channel keeps a property of it. -/
def Channel.AlwaysKept (μ : Type) [Bus μ] (restorable : Snapshot → Prop) (holds : Channel → Prop) :
    Prop :=
  ∀ (channel after : Channel) (clock later : Clock) (memory there : μ),
    Does restorable channel clock memory after later there → holds channel → holds after

/-- Both channels have the property. -/
def All (holds : Channel → Prop) (dma : Dma) : Prop :=
  ∀ index : Fin channelCount, holds dma.channels[index]

theorem All.set (all : dma.All holds) (index : Fin channelCount) {channel : Channel}
    (here : holds channel) : (dma.set index channel).All holds := by
  intro other
  by_cases same : other = index
  · subst same
    rw [Dma.set, Parts.getElem_set_self]
    exact here
  · rw [Dma.set, Parts.getElem_set_of_ne _ _ (Ne.symm same)]
    exact all other

theorem All.act (all : dma.All holds) (kept : Channel.AlwaysKept μ restorable holds)
    {index : Fin channelCount} {clock later : Clock} {memory there : μ} {after : Channel}
    (does : Channel.Does restorable dma.channels[index] clock memory after later there) :
    (dma.set index after).All holds :=
  all.set index (kept _ _ _ _ _ _ does (all index))

theorem All.read (all : dma.All holds) (kept : Channel.AlwaysKept μ restorable holds)
    (clock : Clock) (memory : μ) (width : Width) (address : UInt32) :
    (dma.read clock memory width address).value.2.1.All holds := by
  unfold Dma.read
  cases route? address with
  | none => exact all
  | some there => exact all.act kept (.read width there.2)

theorem All.write (all : dma.All holds) (kept : Channel.AlwaysKept μ restorable holds)
    (clock : Clock) (memory : μ) (width : Width) (address value : UInt32) :
    (dma.write clock memory width address value).Ensures fun (after, _) => after.All holds := by
  unfold Dma.write
  cases route? address with
  | none => exact .bind (.trivial _) fun _ _ => .pure all
  | some there =>
      refine .bind (.own _) fun after done => ?_
      exact .pure (all.act kept (.write width there.2 value done))

theorem All.start (all : dma.All holds) (kept : Channel.AlwaysKept μ restorable holds)
    (clock : Clock) (memory : μ) (number : Nat) (source target count control : UInt32) :
    (dma.start clock memory number source target count control).Ensures
      fun (_, after, _) => after.All holds := by
  unfold Dma.start
  cases channel? number with
  | none => exact .pure all
  | some index =>
      refine .bind (.own _) fun after done => ?_
      exact .pure (all.act kept (.start source target count control done))

theorem All.poll (all : dma.All holds) (kept : Channel.AlwaysKept μ restorable holds)
    (clock : Clock) (memory : μ) : (dma.poll clock memory).value.1.All holds :=
  All.act (All.act all kept .poll) kept .poll

theorem All.resetChannel (all : dma.All holds) (kept : Channel.AlwaysKept μ restorable holds)
    (clock : Clock) (memory : μ) (index : Fin channelCount) :
    (dma.resetChannel clock index).1.All holds := by
  have does : Channel.Does restorable dma.channels[index] clock memory _ _ memory := .reset
  exact all.act kept does

theorem All.reset (all : dma.All holds) (kept : Channel.AlwaysKept μ restorable holds)
    (clock : Clock) (memory : μ) : (dma.reset clock).1.All holds :=
  (all.resetChannel kept clock memory 0).resetChannel kept _ memory 1

theorem All.perform (all : attached.dma.All holds) (kept : Channel.AlwaysKept μ restorable holds)
    (clock : Clock) (command : Command) :
    (attached.perform clock command).Ensures fun (after, _) => after.dma.All holds := by
  cases command with
  | read width address =>
      refine .bind (.traced _) ?_
      rintro _ rfl
      exact .pure (all.read kept clock attached.memory width address)
  | write width address value =>
      exact .bind (all.write kept clock attached.memory width address value)
        fun _ held => .pure held
  | start number source target count control =>
      exact .bind (all.start kept clock attached.memory number source target count control)
        fun _ held => .pure held
  | increment cycles => exact .bind (.trivial _) fun _ _ => .pure all
  | poll =>
      refine .bind (.traced _) ?_
      rintro _ rfl
      exact .pure (all.poll kept clock attached.memory)
  | reset => exact .pure (all.reset kept clock attached.memory)

theorem All.restoreChannel (all : dma.All holds) (kept : Channel.AlwaysKept μ restorable holds)
    {clock later : Clock} {index : Fin channelCount} {saved : Snapshot} (own : restorable saved)
    {answer : Except DeviceError Unit} {after : Dma} (memory : μ)
    (done : dma.restoreChannel clock index saved = .ok (answer, after, later)) :
    after.All holds := by
  obtain ⟨channel, restored, rfl⟩ := of_restoreChannel done
  have does : Channel.Does restorable dma.channels[index] clock memory _ _ memory :=
    .restore own restored
  exact all.act kept does

theorem All.restore (all : dma.All holds) (kept : Channel.AlwaysKept μ restorable holds)
    {clock later : Clock} {saved : List Snapshot} (own : ∀ part ∈ saved, restorable part)
    {answer : Except DeviceError Unit} {after : Dma} (memory : μ)
    (done : dma.restore clock saved = .ok (answer, after, later)) : after.All holds := by
  obtain ⟨-, rfl, rfl⟩ | ⟨first, second, rfl, taken⟩ := of_restore done
  · exact all
  have ownFirst := own first List.mem_cons_self
  obtain ⟨_, rfl, refused⟩ | ⟨between, middle, restored, done⟩ := taken
  · exact all.restoreChannel kept ownFirst memory refused
  · have held := all.restoreChannel kept ownFirst memory restored
    exact held.restoreChannel kept (own second (List.mem_cons_of_mem _ List.mem_cons_self))
      memory done

end Kept

/-! ## Channels that keep to their start bit -/

/-- The registers of a channel are as they were made, and its start bit is set just while a transfer
is under way. -/
def Channel.IsOrderly (channel : Channel) : Prop := channel.bank.Built ∧ channel.IsConsistent

theorem Channel.isOrderly_kept (μ : Type) [Bus μ] :
    AlwaysKept μ (fun saved => saved.outline.IsConsistent) IsOrderly := by
  rintro channel after clock later memory there does ⟨built, consistent⟩
  exact ⟨(does.built ⟨rfl, built⟩).bank, does.isConsistent (fun _ own => own) built consistent⟩

theorem channels_initial (cyclesPerUnit : UInt64) (index : Fin channelCount) :
    (initial cyclesPerUnit).channels[index]
      = { index := index.val, source := Interrupt.dmaSources[index], cyclesPerUnit } :=
  Vector.getElem_ofFn _

theorem initial_isOrderly (cyclesPerUnit : UInt64) :
    (initial cyclesPerUnit).All Channel.IsOrderly := by
  intro index
  have clear : ¬ (Bank.initial registers).get controlIndex &&& startBit ≠ 0 := by decide
  rw [channels_initial]
  exact ⟨⟨rfl, Bank.fits_initial (by decide)⟩, (Channel.isConsistent_iff_of_idle rfl).2 clear⟩

/-- What an engine saves is what its channels save. -/
theorem All.snapshot {restorable : Snapshot → Prop} {holds : Channel → Prop} {dma : Dma}
    (all : dma.All holds) {clock : Clock}
    (each : ∀ channel, holds channel → restorable (channel.snapshot clock)) :
    ∀ part ∈ dma.snapshot clock, restorable part := by
  intro part listed
  rw [Dma.snapshot, Parts.map_toList] at listed
  obtain ⟨index, _, rfl⟩ := List.mem_map.1 listed
  exact each _ (all index)

theorem Channel.IsOrderly.snapshot {channel : Channel} (orderly : channel.IsOrderly)
    (clock : Clock) : (channel.snapshot clock).outline.IsConsistent :=
  (holds_snapshot orderly.1.fits clock).outline_eq ▸ orderly.2

/-- What may become of an engine since power-on. It takes over only what engines of such a kind have
saved. Between the commands the host may change the memory, and others may use the clock. -/
inductive Reached : Attached μ → Clock → Prop where
  | start (cyclesPerUnit : UInt64) (clock : Clock) (memory : μ) :
      Reached ⟨initial cyclesPerUnit, memory⟩ clock
  | perform {attached after : Attached μ} {clock later : Clock} (reached : Reached attached clock)
      (command : Command) (done : (attached.perform clock command).outcome = .ok (after, later)) :
      Reached after later
  | restore {attached origin after : Attached μ} {clock saving later : Clock}
      (reached : Reached attached clock) (own : Reached origin saving)
      {answer : Except DeviceError Unit}
      (done : (attached.restore clock (origin.dma.snapshot saving)).outcome
        = .ok (answer, after, later)) :
      Reached after later
  | aside {attached : Attached μ} {clock : Clock} (reached : Reached attached clock) (later : Clock)
      (memory : μ) :
      Reached { attached with memory } later

theorem Reached.isOrderly {attached : Attached μ} {clock : Clock}
    (reached : Reached attached clock) : attached.dma.All Channel.IsOrderly := by
  induction reached with
  | start cyclesPerUnit => exact initial_isOrderly cyclesPerUnit
  | perform _ command done orderly =>
      exact orderly.perform (Channel.isOrderly_kept μ) _ command _ done
  | @restore attached _ _ _ _ _ _ _ _ done orderly own =>
      obtain ⟨_, restored, same⟩ := Run.outcome_bind_eq_ok.1 done
      cases same
      exact orderly.restore (Channel.isOrderly_kept μ)
        (own.snapshot fun _ orderly => orderly.snapshot _) attached.memory restored
  | aside _ _ _ orderly => exact orderly

end Dma

end SocPeripherals
