import SocPeripherals.Proofs.Dma.Errands

/-!
# The errands of an engine

Commands to an engine give errands to its channels, do what is due of them, and let time pass. What
one channel is asked leaves the errand of the other. A channel that takes over what a channel of
another engine of its speed has saved goes on with the errand of that channel. Whatever becomes of
an engine, its channels run the errands that are known.
-/

namespace SocPeripherals

namespace Dma

variable {μ : Type} [Bus μ]

namespace Attached

/-- The clock and the memory with which a channel is polled. The second channel is polled after the
first. -/
def turn (attached : Attached μ) (clock : Clock) (index : Fin channelCount) : Clock × μ :=
  if index = 0 then (clock, attached.memory)
  else (attached.dma.channels[(0 : Fin channelCount)].poll clock attached.memory).value.2

/-- What becomes of the errand of a channel when an access of some channel leaves an engine
behind. -/
def accessed (attached : Attached μ) (clock : Clock) (after : Dma) (signals : List Signal)
    (index : Fin channelCount) (errand : Option Errand) (there : Option (Fin channelCount)) :
    Option Errand :=
  if there = some index then
    Errand.accessed errand (attached.dma.channels[index].catchUp clock attached.memory).value.1
      after.channels[index] signals
  else errand

/-- What becomes of the errand of a channel when a command leaves an engine behind. -/
def errandAfter (attached : Attached μ) (clock : Clock) (after : Dma) (index : Fin channelCount)
    (errand : Option Errand) (command : Command) : Option Errand :=
  let signals := (attached.perform clock command).signals
  match command with
  | .read _ address | .write _ address _ =>
      attached.accessed clock after signals index errand ((route? address).map Prod.fst)
  | .start number _ _ _ _ =>
      attached.accessed clock after signals index errand (channel? number)
  | .increment cycles => errand.map fun known => known.aged cycles.toNat
  | .poll =>
      let (later, memory) := attached.turn clock index
      Errand.extendedIfKnown errand (attached.dma.channels[index].poll later memory).signals
  | .reset => errand

end Attached

/-- What has become of an engine since power-on, with the errands of its channels as far as they are
known. A channel that takes over what a channel of an engine of its speed has saved goes on with the
errand of that channel. Of any other transfer that is taken over, it is not known how it came to be
where it is. Between the commands others may use the memory, and the clock without moving it on. -/
inductive ErrandHistory (cyclesPerUnit : UInt64) :
    Attached μ → Clock → (Fin channelCount → Option Errand) → Prop where
  | start (clock : Clock) (memory : μ) :
      ErrandHistory cyclesPerUnit ⟨initial cyclesPerUnit, memory⟩ clock fun _ => none
  | perform {attached after : Attached μ} {clock later : Clock}
      {errands : Fin channelCount → Option Errand}
      (history : ErrandHistory cyclesPerUnit attached clock errands) (command : Command)
      (done : (attached.perform clock command).outcome = .ok (after, later)) :
      ErrandHistory cyclesPerUnit after later
        fun index => attached.errandAfter clock after.dma index (errands index) command
  | resume {attached origin : Attached μ} {dma : Dma} {clock saving later : Clock}
      {errands others : Fin channelCount → Option Errand} {index there : Fin channelCount}
      (history : ErrandHistory cyclesPerUnit attached clock errands)
      (own : ErrandHistory cyclesPerUnit origin saving others)
      (done : attached.dma.restoreChannel clock index (origin.dma.channels[there].snapshot saving)
        = .ok (.ok (), dma, later)) :
      ErrandHistory cyclesPerUnit { attached with dma } later
        (Function.update errands index (others there))
  | adopt {attached : Attached μ} {dma : Dma} {clock later : Clock}
      {errands : Fin channelCount → Option Errand} {index : Fin channelCount} {saved : Snapshot}
      (history : ErrandHistory cyclesPerUnit attached clock errands)
      (done : attached.dma.restoreChannel clock index saved = .ok (.ok (), dma, later)) :
      ErrandHistory cyclesPerUnit { attached with dma } later (Function.update errands index none)
  | aside {attached : Attached μ} {clock : Clock} {errands : Fin channelCount → Option Errand}
      (history : ErrandHistory cyclesPerUnit attached clock errands) {later : Clock}
      (now : later.now = clock.now) (memory : μ) :
      ErrandHistory cyclesPerUnit { attached with memory } later errands

variable {cyclesPerUnit : UInt64} {attached : Attached μ} {clock : Clock}
  {errands : Fin channelCount → Option Errand}

/-! ## What every command keeps -/

/-- Every channel keeps its speed and the makeup of its registers. -/
theorem ErrandHistory.built (history : ErrandHistory cyclesPerUnit attached clock errands) :
    attached.dma.All (Channel.Built cyclesPerUnit) := by
  have kept : Channel.AlwaysKept μ (fun _ => True) (Channel.Built cyclesPerUnit) :=
    fun _ _ _ _ _ _ does built => does.built built
  induction history with
  | start =>
      intro index
      have built := (initial_isOrderly cyclesPerUnit index).1
      rw [channels_initial] at built ⊢
      exact ⟨rfl, built⟩
  | perform _ command done built => exact built.perform kept _ command _ done
  | @resume attached _ _ _ _ _ _ _ _ _ _ _ done built _ =>
      exact built.restoreChannel kept trivial attached.memory done
  | @adopt attached _ _ _ _ _ _ _ done built =>
      exact built.restoreChannel kept trivial attached.memory done
  | aside _ _ _ built => exact built

/-- Both channels run their errands, as far as these are known. -/
def Busy (errands : Fin channelCount → Option Errand) (dma : Dma) (now : UInt64) : Prop :=
  ∀ index : Fin channelCount, Errand.HoldsIfKnown (errands index) dma.channels[index] now

variable {index there : Fin channelCount}

/-- An access of some channel leaves both channels with their errands. -/
def Attached.LeavesBusy (attached : Attached μ) (clock : Clock)
    (errands : Fin channelCount → Option Errand) (there : Option (Fin channelCount)) (after : Dma)
    (later : Clock) (signals : List Signal) : Prop :=
  Busy (fun index => attached.accessed clock after signals index (errands index) there) after
    later.now

/-- An access of one channel leaves the errand of the other. -/
theorem Busy.access (busy : Busy errands attached.dma clock.now) {after : Channel} {later : Clock}
    {signals : List Signal} (same : later.now = clock.now)
    (here : Errand.HoldsIfKnown (Errand.accessed (errands there)
      (attached.dma.channels[there].catchUp clock attached.memory).value.1 after signals) after
        later.now) :
    attached.LeavesBusy clock errands (some there) (attached.dma.set there after) later
      signals := by
  intro index
  unfold Attached.accessed
  by_cases other : there = index
  · subst other
    have self : (attached.dma.set there after).channels[there] = after := Parts.getElem_set_self ..
    dsimp only
    rw [if_pos rfl, self]
    exact here
  · have apart : (attached.dma.set there after).channels[index] = attached.dma.channels[index] :=
      Parts.getElem_set_of_ne _ _ other
    dsimp only
    rw [if_neg fun equal => other (Option.some.inj equal), apart, same]
    exact busy index

theorem Busy.read (busy : Busy errands attached.dma clock.now) (width : Width)
    (address : UInt32) :
    let read := attached.dma.read clock attached.memory width address
    attached.LeavesBusy clock errands ((route? address).map Prod.fst) read.value.2.1
      read.value.2.2.1 read.signals := by
  unfold Dma.read
  cases route? address with
  | none => exact busy
  | some there =>
      dsimp only
      rw [Traced.signals_bind, Traced.signals_pure, List.append_nil]
      refine busy.access ?_ ((busy there.1).read attached.memory width there.2)
      exact (Channel.read_step _ clock attached.memory width there.2).serves.follows.now

theorem Busy.write (busy : Busy errands attached.dma clock.now) (width : Width)
    (address value : UInt32) :
    (attached.dma.write clock attached.memory width address value).Tells
      fun (after, later, _) =>
        attached.LeavesBusy clock errands ((route? address).map Prod.fst) after later := by
  unfold Dma.write
  cases route? address with
  | none => exact fun _ done => by cases done; exact busy
  | some there =>
      have step := Channel.write_step attached.dma.channels[there.1] clock attached.memory width
        there.2 value
      have held := (busy there.1).write attached.memory width there.2 value
      refine .conclude (held.and step) ?_
      rintro ⟨after, later, memory⟩ signals ⟨held, step⟩
      exact ⟨_, rfl, busy.access step.serves.follows.now held⟩

theorem Busy.start (busy : Busy errands attached.dma clock.now) (number : Nat)
    (source target count control : UInt32) :
    (attached.dma.start clock attached.memory number source target count control).Tells
      fun (_, after, later, _) =>
        attached.LeavesBusy clock errands (channel? number) after later := by
  unfold Dma.start
  cases channel? number with
  | none => exact .pure busy
  | some there =>
      have step := Channel.start_step attached.dma.channels[there] clock attached.memory source
        target count control
      have held := (busy there).start attached.memory source target count control
      refine .conclude (held.and step) ?_
      rintro ⟨answer, after, later, memory⟩ signals ⟨held, step⟩
      exact ⟨_, rfl, busy.access step.serves.follows.now held⟩

/-! ### Polls -/

/-- The first channel as its poll leaves it does not matter to the second. -/
theorem channels_pollChannel (attached : Attached μ) (clock : Clock) :
    (attached.dma.pollChannel clock attached.memory 0).value.1.channels[(1 : Fin channelCount)]
      = attached.dma.channels[(1 : Fin channelCount)] :=
  Parts.getElem_set_of_ne _ _ (by decide)

/-- The channel that is polled is the one that was there before, on the clock and the memory of its
turn. -/
theorem channels_poll (attached : Attached μ) (clock : Clock) (index : Fin channelCount) :
    (attached.dma.poll clock attached.memory).value.1.channels[index] =
      (attached.dma.channels[index].poll (attached.turn clock index).1
        (attached.turn clock index).2).value.1 := by
  have second := channels_pollChannel attached clock
  obtain rfl | rfl := first_or_second index
  · exact (Parts.getElem_set_of_ne _ _ (by decide)).trans (Parts.getElem_set_self ..)
  · exact (Parts.getElem_set_self ..).trans
      (congrArg (fun channel : Channel =>
        (channel.poll _ (attached.turn clock 1).2).value.1) second)

theorem now_turn (attached : Attached μ) (clock : Clock) (index : Fin channelCount) :
    (attached.turn clock index).1.now = clock.now := by
  unfold Attached.turn
  split
  next => rfl
  next =>
    exact (Channel.poll_step attached.dma.channels[0] clock attached.memory).1.serves.follows.now

theorem now_poll (attached : Attached μ) (clock : Clock) :
    (attached.dma.poll clock attached.memory).value.2.1.now = clock.now := by
  have first := (Channel.poll_step attached.dma.channels[0] clock attached.memory).1
  have second := (Channel.poll_step
    (attached.dma.pollChannel clock attached.memory 0).value.1.channels[(1 : Fin channelCount)]
    (attached.turn clock 1).1 (attached.turn clock 1).2).1
  exact second.serves.follows.now.trans (now_turn attached clock 1)

theorem Busy.poll (busy : Busy errands attached.dma clock.now) :
    let polled := attached.dma.poll clock attached.memory
    Busy (fun index => attached.errandAfter clock polled.value.1 index (errands index) .poll)
      polled.value.1 polled.value.2.1.now := by
  intro polled index
  have turn := now_turn attached clock index
  have held := busy index
  rw [← turn] at held
  have after := held.poll (attached.turn clock index).2
  dsimp only at after
  rw [(Channel.poll_step attached.dma.channels[index] (attached.turn clock index).1
    (attached.turn clock index).2).1.serves.follows.now, turn] at after
  rw [now_poll, channels_poll]
  exact after

/-! ### Everything else -/

omit [Bus μ] in
theorem Busy.reset (errands : Fin channelCount → Option Errand) (dma : Dma) (clock : Clock)
    (now : UInt64) : Busy errands (dma.reset clock).1 now := by
  intro index
  refine .ofIdle ?_ _ _
  obtain rfl | rfl := first_or_second index
  · exact congrArg Channel.transfer
      ((Parts.getElem_set_of_ne _ _ (by decide)).trans (Parts.getElem_set_self ..))
  · exact congrArg Channel.transfer (Parts.getElem_set_self ..)

omit [Bus μ] in
theorem Busy.increment (busy : Busy errands attached.dma clock.now) {cycles : UInt64}
    {reached : Bool} {later : Clock} (passed : clock.increment cycles = .ok (reached, later)) :
    Busy (fun index => (errands index).map fun known => known.aged cycles.toNat) attached.dma
      later.now := by
  unfold Clock.increment at passed
  split at passed
  next =>
    cases passed
    intro index _ aged
    obtain ⟨known, here, rfl⟩ := Option.map_eq_some_iff.1 aged
    exact (busy index known here).aged cycles
  next => contradiction

theorem Busy.perform (busy : Busy errands attached.dma clock.now) (command : Command) :
    (attached.perform clock command).Ensures fun (after, later) =>
      Busy (fun index => attached.errandAfter clock after.dma index (errands index) command)
        after.dma later.now := by
  rintro ⟨after, later⟩ done
  unfold Attached.errandAfter
  have accessed (there : Option (Fin channelCount)) (tells : (attached.perform clock command).Tells
      fun (after, later) => attached.LeavesBusy clock errands there after.dma later) :
      attached.LeavesBusy clock errands there after.dma later
        (attached.perform clock command).signals :=
    tells _ done
  cases command with
  | read width address =>
      refine accessed _ (.conclude (.traced _) ?_)
      rintro _ _ ⟨rfl, rfl⟩
      exact ⟨_, rfl, busy.read width address⟩
  | write width address value =>
      exact accessed _ (.conclude (busy.write width address value) fun _ _ held => ⟨_, rfl, held⟩)
  | start number source target count control =>
      exact accessed _ (.conclude (busy.start number source target count control)
        fun _ _ held => ⟨_, rfl, held⟩)
  | increment cycles =>
      obtain ⟨_, passed, same⟩ := Run.outcome_bind_eq_ok.1 done
      cases same
      exact busy.increment passed
  | poll =>
      cases done
      exact busy.poll
  | reset =>
      cases done
      exact .reset errands attached.dma clock _

omit [Bus μ] in
/-- What one channel takes over does not matter to the other. -/
theorem Busy.restoreChannel {dma after : Dma} (busy : Busy errands dma clock.now)
    {saved : Snapshot} {answer : Except DeviceError Unit} {later : Clock}
    (done : dma.restoreChannel clock index saved = .ok (answer, after, later))
    {errand : Option Errand}
    (here : ∀ channel, dma.channels[index].restore clock saved = .ok (answer, channel, later) →
      Errand.HoldsIfKnown errand channel later.now) :
    Busy (Function.update errands index errand) after later.now := by
  obtain ⟨channel, restored, rfl⟩ := of_restoreChannel done
  have tends : Channel.Tends 0 dma.channels[index] clock channel later :=
    Channel.restore_tends (fun _ _ _ => UInt64.zero_le) restored
  intro other
  by_cases same : other = index
  · subst same
    have self : (dma.set other channel).channels[other] = channel := Parts.getElem_set_self ..
    rw [Function.update_self, self]
    exact here channel restored
  · have apart : (dma.set index channel).channels[other] = dma.channels[other] :=
      Parts.getElem_set_of_ne _ _ (Ne.symm same)
    rw [Function.update_of_ne same, apart, tends.serves.follows.now]
    exact busy other

theorem ErrandHistory.busy (history : ErrandHistory cyclesPerUnit attached clock errands) :
    Busy errands attached.dma clock.now := by
  induction history with
  | start clock =>
      intro index
      refine .ofIdle ?_ _ _
      rw [channels_initial]
  | perform _ command done busy => exact busy.perform command _ done
  | @resume _ _ _ _ _ _ _ _ index there history own done busy others =>
      refine busy.restoreChannel done fun channel restored known here => ?_
      have built := history.built index
      have origin := own.built there
      exact (others there known here).restore origin.bank.fits
        (built.bank.resets.trans origin.bank.resets.symm)
        (built.cyclesPerUnit.trans origin.cyclesPerUnit.symm) restored
  | adopt _ done busy => exact busy.restoreChannel done fun _ _ => nofun
  | aside _ now _ busy =>
      intro index
      rw [now]
      exact busy index

/-! ## Engines that take over what was saved -/

/-- What is known of the errand of a channel that takes over a saved one. -/
def Draws (μ : Type) [Bus μ] (cyclesPerUnit : UInt64) (saved : Snapshot)
    (errand : Option Errand) : Prop :=
  errand = none ∨ ∃ (origin : Attached μ) (saving : Clock)
    (others : Fin channelCount → Option Errand) (there : Fin channelCount),
    ErrandHistory cyclesPerUnit origin saving others ∧
      saved = origin.dma.channels[there].snapshot saving ∧ errand = others there

theorem ErrandHistory.restoreChannel (history : ErrandHistory cyclesPerUnit attached clock errands)
    {saved : Snapshot} {errand : Option Errand} (draws : Draws μ cyclesPerUnit saved errand)
    {dma : Dma} {later : Clock}
    (done : attached.dma.restoreChannel clock index saved = .ok (.ok (), dma, later)) :
    ErrandHistory cyclesPerUnit { attached with dma } later
      (Function.update errands index errand) := by
  obtain rfl | ⟨origin, saving, others, there, own, rfl, rfl⟩ := draws
  · exact history.adopt done
  · exact history.resume own done

omit [Bus μ] in
/-- A channel that does not take over what was saved is left alone. -/
theorem restoreChannel_refused {dma after : Dma} {saved : Snapshot} {error : DeviceError}
    {later : Clock}
    (done : dma.restoreChannel clock index saved = .ok (.error error, after, later)) :
    after = dma ∧ later = clock := by
  obtain ⟨channel, restored, rfl⟩ := of_restoreChannel done
  obtain ⟨-, rfl, rfl⟩ | ⟨accepted, -⟩ := Channel.of_restore restored
  · exact ⟨congrArg Dma.mk (Parts.set_getElem _ _), rfl⟩
  · cases accepted

/-- Whatever an engine takes over, in whole or up to what does not fit, it goes on with what is
known of the errands. -/
theorem ErrandHistory.restore (history : ErrandHistory cyclesPerUnit attached clock errands)
    {snapshots : List Snapshot} {given : Fin channelCount → Option Errand}
    (draws : ∀ index : Fin channelCount, ∀ saved ∈ snapshots[index.val]?,
      Draws μ cyclesPerUnit saved (given index))
    {answer : Except DeviceError Unit} {after : Attached μ} {later : Clock}
    (done : (attached.restore clock snapshots).outcome = .ok (answer, after, later)) :
    ∃ further, ErrandHistory cyclesPerUnit after later further ∧
      (answer = .ok () → further = given) := by
  obtain ⟨⟨answer, dma, later⟩, restored, same⟩ := Run.outcome_bind_eq_ok.1 done
  cases same
  replace restored : attached.dma.restore clock snapshots = .ok (answer, dma, later) := restored
  obtain ⟨⟨_, rfl⟩, rfl, rfl⟩ | ⟨first, second, rfl, taken⟩ := of_restore restored
  · exact ⟨errands, history, nofun⟩
  obtain ⟨_, rfl, refused⟩ | ⟨between, middle, begun, rest⟩ := taken
  · obtain ⟨rfl, rfl⟩ := restoreChannel_refused refused
    exact ⟨errands, history, nofun⟩
  have halfway := history.restoreChannel (draws 0 first rfl) begun
  cases answer with
  | error error =>
      obtain ⟨rfl, rfl⟩ := restoreChannel_refused rest
      exact ⟨_, halfway, nofun⟩
  | ok =>
      refine ⟨_, halfway.restoreChannel (draws 1 second rfl) rest, fun _ => ?_⟩
      funext index
      obtain rfl | rfl := first_or_second index
      · rfl
      · rfl

end Dma

end SocPeripherals
