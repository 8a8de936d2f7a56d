import SocPeripherals.Dma.Engine
import SocPeripherals.Proofs.Dma.Channel
import SocPeripherals.Proofs.Late.Passed

/-!
# Memory transfers polled late

The first poll at which the last unit of a transfer is due brings the transfer to its end, and it
moves the same units whenever it comes. Two channels share one memory, so this is said of an engine
with at most one transfer under way.
-/

namespace SocPeripherals

namespace Dma

variable {μ : Type} {clock first second again late : Clock} {before rest : UInt64}

namespace Channel

variable {channel : Channel} {transfer : Transfer}

/-- Two operations come to one channel and one memory. -/
abbrev SameWork (left right : Channel × Clock × μ) : Prop :=
  left.1 = right.1 ∧ left.2.2 = right.2.2

/-- The deadline of the transfer lies ahead, where it should be. -/
def IsOnTime (channel : Channel) (clock : Clock) : Prop :=
  ∀ transfer ∈ channel.transfer, ∀ due ∈ transfer.due, clock.distance due.time < Clock.horizon ∧
    due.time = transfer.startedAt + channel.duration transfer.total ∧
      clock.now - transfer.startedAt < channel.duration transfer.total

/-- The end of a transfer is on record wherever its deadline was placed. -/
theorem finish_matches (channel : Channel) (first second : Clock) (failed : Bool) :
    (channel.finish first failed).Matches (fun left right => left.1 = right.1)
      (channel.finish second failed) :=
  .mk _ rfl

variable [Bus μ]

/-- As many units are moved whatever the clock. -/
theorem advance_matches (active : channel.transfer = some transfer) (first second : Clock)
    (memory : μ) {target other : UInt32}
    (same : transfer.outstanding other = transfer.outstanding target) :
    (channel.advance first memory target).Matches SameWork
      (channel.advance second memory other) := by
  unfold advance
  rw [active]
  dsimp only
  rw [same]
  refine .bind (.refl _) fun _ _ _ => ?_
  split
  next =>
    refine .bind (.refl _) fun _ _ _ => ?_
    exact .bind (finish_matches _ first second true) fun _ _ ended => .pure ⟨ended, rfl⟩
  next =>
    split
    next => exact .bind (finish_matches _ first second false) fun _ _ ended => .pure ⟨ended, rfl⟩
    next => exact .pure ⟨rfl, rfl⟩

theorem outstanding_of_total_le {target : UInt32} (le : transfer.total ≤ target) :
    transfer.outstanding target = transfer.outstanding transfer.total := by
  rw [Transfer.outstanding_eq, Transfer.outstanding_eq,
    Nat.min_eq_right (UInt32.le_iff_toNat_le.1 le), Nat.min_self]

theorem poll_of_none (idle : channel.transfer = none) (clock : Clock) (memory : μ) :
    channel.poll clock memory = pure (channel, clock, memory) := by
  unfold poll
  rw [idle]

/-- A poll does the same on any clock that shows the cycle. -/
theorem poll_congr (sound : channel.IsSound) (now : second.now = first.now) (memory : μ) :
    (channel.poll first memory).Matches SameWork (channel.poll second memory) := by
  by_cases ahead : ∀ deadline ∈ channel.held, first.hasReached deadline.time = false
  · rw [poll_of_ahead ahead, poll_of_ahead fun deadline known => by
      rw [Clock.hasReached_congr now]
      exact ahead deadline known]
    exact .pure ⟨rfl, rfl⟩
  · obtain ⟨due, known, reached⟩ : ∃ due ∈ channel.held, first.hasReached due.time = true := by
      simpa using ahead
    obtain ⟨transfer, active, timed⟩ := mem_held.1 known
    have performs := sound transfer active
    have going : (channel.letGo transfer).transfer = some { transfer with due := none } := rfl
    have units : (channel.letGo transfer).dueUnits second { transfer with due := none }
        = (channel.letGo transfer).dueUnits first { transfer with due := none } := by
      unfold dueUnits
      rw [now]
    rw [poll_of_reached active timed reached,
      poll_of_reached active timed ((Clock.hasReached_congr now _).trans reached),
      catchUp_of_timed going performs.timed, catchUp_of_timed going performs.timed, units]
    exact advance_matches going first second memory rfl

/-- From its deadline on a transfer on time has all its units due. -/
theorem IsOnTime.regular (onTime : channel.IsOnTime clock)
    (active : channel.transfer = some transfer) {due : Deadline}
    (timed : transfer.due = some due) {cycles : UInt64}
    (short : cycles < Clock.horizon) (now : late.now = clock.now + cycles) :
    channel.Regular late transfer := by
  obtain ⟨_, time, early⟩ := onTime transfer active due timed
  refine ⟨due, timed, time, ?_⟩
  have elapsed : late.now - transfer.startedAt = clock.now - transfer.startedAt + cycles := by
    rw [now]
    grind
  rw [UInt64.lt_iff_toNat_lt] at early short
  rw [elapsed, UInt64.toNat_add]
  exact (Nat.mod_le _ _).trans_lt (Nat.add_lt_add early short)

/-- Once the transfer has ended a poll adds nothing. -/
theorem matches_poll_of_ended {work other : Traced Signal (Channel × Clock × μ)}
    (alike : work.Matches SameWork other) (ended : work.value.1.transfer = none) (clock : Clock) :
    Traced.Matches SameWork
      (do
        let (between, _, memory) ← work
        between.poll clock memory)
      other := by
  obtain ⟨⟨channel, _, memory⟩, signals⟩ := work
  constructor
  · rw [Traced.signals_bind]
    dsimp only
    rw [poll_of_none ended, ← alike.1]
    exact List.append_nil signals
  · rw [Traced.value_bind]
    dsimp only
    rw [poll_of_none ended]
    exact alike.2

/-- A poll on the way makes no difference to a transfer on time. -/
theorem poll_twice (passed : Clock.Passed clock first second before rest) (sound : channel.IsSound)
    (onTime : channel.IsOnTime clock) (now : again.now = second.now)
    (nowLate : late.now = second.now) (memory : μ) :
    Traced.Matches SameWork
      (do
        let (between, _, memory) ← channel.poll first memory
        between.poll again memory)
      (channel.poll late memory) := by
  by_cases ahead : ∀ deadline ∈ channel.held, first.hasReached deadline.time = false
  · rw [poll_of_ahead ahead, pure_bind]
    exact poll_congr sound (nowLate.trans now.symm) memory
  · obtain ⟨due, known, reached⟩ : ∃ due ∈ channel.held, first.hasReached due.time = true := by
      simpa using ahead
    obtain ⟨transfer, active, timed⟩ := mem_held.1 known
    have performs := sound transfer active
    have near := (onTime transfer active due timed).1
    have reachedLate : late.hasReached due.time = true :=
      (Clock.hasReached_congr nowLate _).trans (passed.reached near reached).1
    have going : (channel.letGo transfer).transfer = some { transfer with due := none } := rfl
    have brief : before < Clock.horizon :=
      UInt64.lt_iff_toNat_lt.2 ((Nat.le_add_right _ _).trans_lt passed.short)
    have whole : before + rest < Clock.horizon := by
      rw [UInt64.lt_iff_toNat_lt, UInt64.toNat_add]
      exact (Nat.mod_le _ _).trans_lt passed.short
    have all := total_le_dueUnits performs (onTime.regular active timed brief passed.now) timed
      reached
    have allLate := total_le_dueUnits performs (onTime.regular active timed whole
      (by rw [nowLate, passed.later, passed.now, UInt64.add_assoc])) timed reachedLate
    have finished := (advance_step going first memory (channel.dueUnits first transfer)).2
      performs.moved all
    have same : Transfer.outstanding { transfer with due := none } (channel.dueUnits late transfer)
        = Transfer.outstanding { transfer with due := none } (channel.dueUnits first transfer) :=
      (outstanding_of_total_le allLate).trans (outstanding_of_total_le all).symm
    rw [poll_of_reached active timed reached, poll_of_reached active timed reachedLate,
      catchUp_of_timed going performs.timed, catchUp_of_timed going performs.timed]
    exact matches_poll_of_ended (advance_matches going first late memory same) finished again

/-- A transfer sends nothing on a port. -/
theorem sent_advance (channel : Channel) (clock : Clock) (memory : μ) (target : UInt32)
    (port : Nat) :
    (channel.advance clock memory target).signals.filterMap (Signal.sent? port) = [] := by
  have calls (calls : List BusCall) :
      (calls.map Signal.host).filterMap (Signal.sent? port) = [] := by
    rw [List.filterMap_map]
    exact List.filterMap_eq_nil_iff.2 fun _ _ => rfl
  unfold advance
  split
  next => rfl
  next =>
    dsimp only
    rw [Traced.signals_bind, List.filterMap_append, Traced.signals_signalAll, calls,
      List.nil_append]
    split
    next => rfl
    next => split <;> rfl

theorem sent_poll (channel : Channel) (clock : Clock) (memory : μ) (port : Nat) :
    (channel.poll clock memory).signals.filterMap (Signal.sent? port) = [] := by
  unfold poll
  split
  next => rfl
  next =>
    dsimp only
    split
    next =>
      unfold catchUp
      dsimp only
      split
      next => rfl
      next => exact sent_advance _ clock memory _ port
    next => rfl

end Channel

theorem snapshot_now (now : second.now = first.now) (dma : Dma) :
    dma.snapshot second = dma.snapshot first := by
  unfold snapshot Channel.snapshot
  rw [now]

variable {dma : Dma} {index : Fin channelCount}

/-- No transfer is under way on another channel. -/
def IsLone (dma : Dma) (index : Fin channelCount) : Prop :=
  ∀ other, other ≠ index → dma.channels[other].transfer = none

theorem IsLone.set (lone : dma.IsLone index) (channel : Channel) :
    (dma.set index channel).IsLone index := by
  intro other apart
  unfold Dma.set
  rw [Parts.getElem_set_of_ne _ _ apart.symm]
  exact lone other apart

/-- A channel that is replaced by itself. -/
theorem set_self (dma : Dma) (index : Fin channelCount) :
    dma.set index dma.channels[index] = dma := by
  unfold Dma.set
  rw [Parts.set_getElem]

theorem get_set (dma : Dma) (index : Fin channelCount) (channel : Channel) :
    (dma.set index channel).channels[index] = channel := by
  unfold Dma.set
  simp

theorem set_set (dma : Dma) (index : Fin channelCount) (first second : Channel) :
    (dma.set index first).set index second = dma.set index second := by
  unfold Dma.set
  simp

variable [Bus μ]

/-- Before its deadline a channel is left alone. -/
theorem pollChannel_of_ahead
    (ahead : ∀ deadline ∈ dma.channels[index].held, clock.hasReached deadline.time = false)
    (memory : μ) : dma.pollChannel clock memory index = pure (dma, clock, memory) := by
  unfold pollChannel
  rw [Channel.poll_of_ahead ahead, pure_bind]
  dsimp only
  rw [set_self]

theorem pollChannel_of_none (idle : dma.channels[index].transfer = none) (clock : Clock)
    (memory : μ) : dma.pollChannel clock memory index = pure (dma, clock, memory) := by
  apply pollChannel_of_ahead
  intro deadline known
  obtain ⟨transfer, active, -⟩ := Channel.mem_held.1 known
  exact absurd (idle.symm.trans active) (by simp)

/-- A poll of the engine is one of the channel whose transfer is under way. -/
theorem poll_of_isLone (lone : dma.IsLone index) (clock : Clock) (memory : μ) :
    dma.poll clock memory = dma.pollChannel clock memory index := by
  unfold poll
  match index with
  | 0 =>
      have idle (channel : Channel) : (dma.set 0 channel).channels[(1 : Fin channelCount)].transfer
          = none := lone.set channel 1 (by decide)
      have first : dma.pollChannel clock memory 0 = (do
          let (channel, clock, memory) ← dma.channels[(0 : Fin channelCount)].poll clock memory
          return (dma.set 0 channel, clock, memory)) := rfl
      rw [first, bind_assoc]
      congr 1
      funext ⟨channel, clock, memory⟩
      rw [pure_bind]
      exact pollChannel_of_none (idle channel) clock memory
  | 1 =>
      rw [pollChannel_of_none (lone 0 (by decide)), pure_bind]

/-- Two operations come to one engine and one memory. -/
abbrev SameWork (left right : Dma × Clock × μ) : Prop :=
  left.1 = right.1 ∧ left.2.2 = right.2.2

theorem IsLone.poll (lone : dma.IsLone index) (clock : Clock) (memory : μ) :
    (dma.poll clock memory).value.1.IsLone index := by
  rw [poll_of_isLone lone]
  exact lone.set _

/-- A poll does the same on any clock that shows the cycle. -/
theorem poll_congr (lone : dma.IsLone index) (sound : dma.channels[index].IsSound)
    (now : second.now = first.now) (memory : μ) :
    Traced.Matches SameWork (dma.poll first memory) (dma.poll second memory) := by
  rw [poll_of_isLone lone, poll_of_isLone lone]
  refine .bind (Channel.poll_congr sound now memory) ?_
  rintro ⟨channel, _, memory⟩ ⟨channelOther, _, _⟩ ⟨rfl, rfl⟩
  exact .pure ⟨rfl, rfl⟩

/-- Before its deadlines the engine is left alone. -/
theorem poll_of_ahead (lone : dma.IsLone index)
    (ahead : ∀ deadline ∈ dma.channels[index].held, clock.hasReached deadline.time = false)
    (memory : μ) : dma.poll clock memory = pure (dma, clock, memory) := by
  rw [poll_of_isLone lone]
  exact pollChannel_of_ahead ahead memory

/-- A poll on the way makes no difference to an engine with at most one transfer under way, if that
is on time. -/
theorem poll_twice (passed : Clock.Passed clock first second before rest) (lone : dma.IsLone index)
    (sound : dma.channels[index].IsSound) (onTime : dma.channels[index].IsOnTime clock)
    (now : again.now = second.now) (nowLate : late.now = second.now) (memory : μ) :
    Traced.Matches SameWork
      (do
        let (between, _, memory) ← dma.poll first memory
        between.poll again memory)
      (dma.poll late memory) := by
  have polled : (do
      let (between, _, memory) ← dma.poll first memory
      between.poll again memory) = (do
      let (channel, clock, memory) ← (do
        let (between, _, memory) ← dma.channels[index].poll first memory
        between.poll again memory : Traced Signal (Channel × Clock × μ))
      return (dma.set index channel, clock, memory)) := by
    rw [poll_of_isLone lone]
    unfold pollChannel
    rw [bind_assoc, bind_assoc]
    congr 1
    funext ⟨between, _, memory⟩
    rw [pure_bind]
    dsimp only
    rw [poll_of_isLone (lone.set between)]
    unfold pollChannel
    simp only [get_set, set_set]
  rw [polled, poll_of_isLone lone]
  refine .bind (Channel.poll_twice passed sound onTime now nowLate memory) ?_
  rintro ⟨channel, _, memory⟩ ⟨channelOther, _, _⟩ ⟨rfl, rfl⟩
  exact .pure ⟨rfl, rfl⟩

theorem sent_poll (lone : dma.IsLone index) (clock : Clock) (memory : μ) (port : Nat) :
    (dma.poll clock memory).signals.filterMap (Signal.sent? port) = [] := by
  rw [poll_of_isLone lone]
  unfold pollChannel
  rw [Traced.signals_bind, List.filterMap_append, Channel.sent_poll]
  rfl

end Dma

end SocPeripherals
