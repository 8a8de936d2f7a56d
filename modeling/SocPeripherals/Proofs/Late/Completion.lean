import SocPeripherals.Proofs.Late.Advance
import SocPeripherals.Proofs.Late.Request
import SocPeripherals.Proofs.Late.Touch

/-!
# When the end of a transfer is told

A transfer that takes its time asks for its interrupt when it is over. A host that advances the
clock finds the interrupt pending once the transfer's time has come, however it looks at the channel
on the way, as long as the memory refuses no access. A refused access shows at the first look at
which it is due, and without one when the time has come.
-/

namespace SocPeripherals

namespace Block

variable {μ : Type} [Bus μ] {block after : Block μ} {settings : Settings}
  {index : Fin Dma.channelCount}

/-! ## Transfers under way -/

/-- What a command leaves alone that has nothing to do with a channel. -/
structure Spares (index : Fin Dma.channelCount) (block after : Block μ) : Prop where
  channel : after.dma.channels[index] = block.dma.channels[index]
  lone : after.dma.IsLone index
  memory : after.memory = block.memory
  pending : after.controller.IsPending Interrupt.dmaSources[index] ↔
    block.controller.IsPending Interrupt.dmaSources[index]

/-- The command takes no time and restores nothing. -/
def Command.IsAside : Command → Prop
  | .increment _ | .tick _ | .advance _ | .restore _ => False
  | _ => True

/-- What a host does with a block while a transfer is under way on a channel that began some cycles
before: `elapsed` cycles ago by now, and the channel was looked at when it had lasted so long. -/
inductive History (index : Fin Dma.channelCount) (start : Block μ) (begun : Nat) :
    Nat → List Nat → Block μ → Prop where
  | start : History index start begun begun [] start
  | advance {elapsed : Nat} {looks : List Nat} {block after : Block μ} {response : Response}
      (history : History index start begun elapsed looks block) (cycles : UInt64)
      (done : (block.perform (.advance cycles)).outcome = .ok (response, after)) :
      History index start begun (elapsed + cycles.toNat) looks after
  | look {elapsed : Nat} {looks : List Nat} {block after : Block μ} {response : Response}
      (history : History index start begun elapsed looks block) (command : Command)
      (touches : command.Touches index)
      (done : (block.perform command).outcome = .ok (response, after)) :
      History index start begun elapsed (looks ++ [elapsed]) after
  | aside {elapsed : Nat} {looks : List Nat} {block after : Block μ} {response : Response}
      (history : History index start begun elapsed looks block) (command : Command)
      (aside : command.IsAside) (spares : Spares index block after)
      (done : (block.perform command).outcome = .ok (response, after)) :
      History index start begun elapsed looks after

/-- A transfer of a channel that began with a deadline and has units left. -/
structure Launched (index : Fin Dma.channelCount) (channel : Dma.Channel) (transfer : Transfer) :
    Prop where
  source : channel.source = Interrupt.dmaSources[index]
  performs : channel.Performs transfer
  due : ∃ due, transfer.due = some due ∧
    due.time = transfer.startedAt + channel.duration transfer.total

open Dma.Channel (completion lasted)

/-- Where a transfer stands that has lasted so long and was looked at when it had lasted so long. -/
structure Standing (settings : Settings) (index : Fin Dma.channelCount) (channel : Dma.Channel)
    (transfer : Transfer) (memory : μ) (elapsed : Nat) (looks : List Nat) (block : Block μ) :
    Prop where
  settled : Settled settings block
  lone : block.dma.IsLone index
  seen : ∀ look ∈ looks, look ≤ elapsed
  finished : channel.completion transfer memory looks ≤ elapsed →
    block.controller.IsPending Interrupt.dmaSources[index]
  going : elapsed < channel.completion transfer memory looks →
    ¬ block.controller.IsPending Interrupt.dmaSources[index] ∧
      lasted block.clock transfer = elapsed ∧ ∃ units signals,
        ¬ channel.Ends transfer memory units ∧
          channel.Stage transfer memory units block.dma.channels[index] block.memory signals

variable {channel : Dma.Channel} {transfer : Transfer} {memory : μ} {elapsed : Nat}
  {looks : List Nat}

/-- A tick moves the clock on and then polls a channel that is on its own. -/
theorem Settled.tick_polls (settled : Settled settings block) (lone : block.dma.IsLone index)
    {cycles : UInt64} (short : cycles < Clock.horizon) :
    (block.tick cycles).Succeeds fun (_, after) => ∃ clock : Clock,
      clock.now = block.clock.now + cycles ∧ after.clock.now = clock.now ∧
      Settled settings after ∧ after.dma.IsLone index ∧
      let polled := block.dma.channels[index].poll clock block.memory
      after.dma.channels[index] = polled.value.1 ∧ after.memory = polled.value.2.2 ∧
      (after.controller.IsPending Interrupt.dmaSources[index] ↔
        block.controller.IsPending Interrupt.dmaSources[index] ∨
          Interrupt.dmaSources[index] ∈ polled.signals.filterMap Signal.interrupt?) := by
  obtain ⟨⟨_, after⟩, done, _, clock, asked, now, handled⟩ := settled.tick_gives short
  have pending := (handled.heard.isPending_iff (Interrupt.dmaSource_lt index)).trans
    (or_congr_right (handled.asks_iff settled.punctual.sound))
  have dma := handled.dma
  have memory := handled.memory
  rw [Dma.poll_of_isLone lone] at dma memory pending
  refine ⟨_, done, clock, now, handled.now, settled.tick short _ done, ?_, ?_, memory, ?_⟩
  · rw [handled.dma]
    exact lone.poll clock block.memory
  · rw [dma]
    exact Dma.get_set _ _ _
  · have told : (block.dma.pollChannel clock block.memory index).signals
        = (block.dma.channels[index].poll clock block.memory).signals := List.append_nil _
    rw [pending, told]

/-- A tick moves a transfer on. -/
theorem Standing.tick (standing : Standing settings index channel transfer memory elapsed looks block)
    (launched : Launched index channel transfer) {cycles : UInt64}
    (short : cycles < Clock.horizon) :
    (block.tick cycles).Succeeds fun (_, after) =>
      Standing settings index channel transfer memory (elapsed + cycles.toNat) looks after := by
  obtain ⟨settled, lone, seen, finished, going⟩ := standing
  obtain ⟨⟨_, after⟩, done, clock, now, nowAfter, settledAfter, loneAfter, channelAfter,
    memoryAfter, pending⟩ := settled.tick_polls lone short
  obtain ⟨source, performs, due, waits, time⟩ := launched
  have later : channel.completion transfer memory looks ≤ elapsed + cycles.toNat ↔ _ :=
    Dma.Channel.completion_le_later seen (Nat.le_add_right _ _)
  have early (ahead : elapsed < channel.completion transfer memory looks) :=
    ahead.trans_le (channel.completion_le_due transfer memory looks)
  refine ⟨_, done, settledAfter, loneAfter, ?_, ?_, ?_⟩
  · exact fun look listed => (seen look listed).trans (Nat.le_add_right _ _)
  · intro late
    rw [pending]
    by_cases ended : channel.completion transfer memory looks ≤ elapsed
    · exact .inl (finished ended)
    · rw [Nat.not_le] at ended
      obtain ⟨_, lasts, units, signals, goes, stage⟩ := going ended
      have polled := stage.poll goes performs waits time (lasts.trans_lt (early ended)) short now
      rw [lasts, source] at polled
      exact .inr (polled.1 ((later.1 late).resolve_left (Nat.not_le.2 ended)))
  · intro ahead
    have ended := (Nat.le_add_right _ _).trans_lt ahead
    obtain ⟨quiet, lasts, units, signals, goes, stage⟩ := going ended
    have polled := stage.poll goes performs waits time (lasts.trans_lt (early ended)) short now
    rw [lasts] at polled
    obtain ⟨silent, still⟩ := polled.2
      (ahead.trans_le (channel.completion_le_due transfer memory looks))
    rw [← channelAfter, ← memoryAfter] at still
    refine ⟨?_, ?_, units, _, goes, still⟩
    · rw [pending, silent]
      exact fun asks => asks.elim quiet List.not_mem_nil
    · have brief := (ahead.trans_le (channel.completion_le_due transfer memory looks)).trans
        (performs.toNat_duration ▸ UInt64.lt_iff_toNat_lt.1 performs.short)
      rw [Dma.Channel.lasted_congr nowAfter, Dma.Channel.lasted_of_now now (lasts ▸ brief), lasts]

/-- A command for the channel looks at the transfer. -/
theorem Standing.look (standing : Standing settings index channel transfer memory elapsed looks block)
    (launched : Launched index channel transfer) {command : Command} {response : Response}
    (touches : command.Touches index)
    (done : (block.perform command).outcome = .ok (response, after)) :
    Standing settings index channel transfer memory elapsed (looks ++ [elapsed]) after := by
  obtain ⟨settled, lone, seen, finished, going⟩ := standing
  obtain ⟨atOnce, respects⟩ := touches.isLocal
  have acts := perform_acts (fun _ => False) atOnce respects block _ done
  have now := (acts.follows UInt64.zero_le fun _ never => never.elim).now
  obtain ⟨part, clock, there, signals, looked, rfl⟩ := touch_cases touches done
  have pending := (Interrupt.Controller.hearAll_heard settled.punctual.sound.driven
    signals).isPending_iff (Interrupt.dmaSource_lt index)
  obtain ⟨source, performs, due, waits, time⟩ := launched
  have early {looks : List Nat} (ahead : elapsed < channel.completion transfer memory looks) :=
    ahead.trans_le (channel.completion_le_due transfer memory looks)
  have looking (before : elapsed < transfer.total.toNat * channel.cyclesPerUnit.toNat) :
      channel.completion transfer memory (looks ++ [elapsed]) ≤ elapsed ↔ _ :=
    Dma.Channel.completion_append seen before
  refine ⟨settled.acts acts (lone.set part), lone.set part, ?_, ?_, ?_⟩
  · intro look listed
    rcases List.mem_append.1 listed with listed | same
    · exact seen look listed
    · exact (List.mem_singleton.1 same).le
  · intro late
    rw [pending]
    by_cases ended : channel.completion transfer memory looks ≤ elapsed
    · exact .inl (finished ended)
    · rw [Nat.not_le] at ended
      have refused := ((looking (early ended)).1 late).resolve_left (Nat.not_le.2 ended)
      obtain ⟨_, lasts, units, told, goes, stage⟩ := going ended
      have ends := (Dma.Channel.ends_asked performs.timed stage.within
        (lasts.trans_lt (early ended))).2 (.inr (lasts.symm ▸ refused))
      exact .inr (source ▸ (stage.look goes performs.timed looked).1 ends)
  · intro ahead
    obtain ⟨unended, taken⟩ := not_or.1 (mt (looking (early ahead)).2 (Nat.not_le.2 ahead))
    rw [Nat.not_le] at unended
    obtain ⟨quiet, lasts, units, told, goes, stage⟩ := going unended
    have goesOn := mt (Dma.Channel.ends_asked performs.timed stage.within
      (lasts.trans_lt (early unended))).1 (not_or.2 ⟨goes, lasts.symm ▸ taken⟩)
    obtain ⟨silent, still⟩ := (stage.look goes performs.timed looked).2 goesOn
    refine ⟨?_, (Dma.Channel.lasted_congr now).trans lasts, _, told ++ signals, goesOn, ?_⟩
    · rw [pending, silent]
      exact fun asks => asks.elim quiet List.not_mem_nil
    · dsimp only
      rw [Dma.get_set]
      exact still

/-- A command that has nothing to do with the channel leaves the transfer where it stands. -/
theorem Standing.aside
    (standing : Standing settings index channel transfer memory elapsed looks block)
    {command : Command} {response : Response} (aside : command.IsAside)
    (spares : Spares index block after)
    (done : (block.perform command).outcome = .ok (response, after)) :
    Standing settings index channel transfer memory elapsed looks after := by
  obtain ⟨settled, lone, seen, finished, going⟩ := standing
  have kept : Settled settings after ∧ after.clock.now = block.clock.now := by
    by_cases atOnce : command.IsLocal
    · have respects : command.Respects fun _ => False := by
        cases command <;> first | exact trivial | exact aside.elim
      have acts := perform_acts (fun _ => False) atOnce respects block _ done
      exact ⟨settled.acts acts spares.lone,
        (acts.follows UInt64.zero_le fun _ never => never.elim).now⟩
    · cases command with
      | placeDeadline cycles =>
          obtain ⟨⟨deadline, clock⟩, placed, same⟩ := Run.outcome_bind_eq_ok.1 done
          cases same
          have follows := (Clock.Serves.scheduleIn placed UInt64.zero_le).follows
          refine ⟨⟨settled.punctual.ofFollows follows, fun other known => ?_, settled.lone⟩,
            follows.now⟩
          obtain ⟨before, ahead⟩ := settled.awaits other known
          refine ⟨?_, (Clock.hasReached_congr follows.now _).trans ahead⟩
          rw [(Clock.pending_of_scheduleAt placed).1]
          exact List.mem_cons_of_mem _ before
      | _ => first | exact absurd trivial atOnce | exact aside.elim
  refine ⟨kept.1, spares.lone, seen, fun late => spares.pending.2 (finished late), fun ahead => ?_⟩
  obtain ⟨quiet, lasts, units, signals, goes, stage⟩ := going ahead
  refine ⟨mt spares.pending.1 quiet, (Dma.Channel.lasted_congr kept.2).trans lasts, units, signals,
    goes, ?_⟩
  rw [spares.channel, spares.memory]
  exact stage

/-! ## What a host finds -/

/-- Whatever a host does meanwhile, a transfer stands where its time and the looks put it. -/
theorem History.standing {start : Block μ} {begun : Nat}
    (history : History index start begun elapsed looks block)
    (launched : Launched index channel transfer)
    (standing : Standing settings index channel transfer memory begun [] start) :
    Standing settings index channel transfer memory elapsed looks block := by
  induction history with
  | start => exact standing
  | @advance elapsed looks block after response _ cycles done standing =>
      obtain ⟨⟨_, _⟩, advanced, same⟩ := Run.outcome_bind_eq_ok.1 done
      cases same
      have ticks : ∀ elapsed (block : Block μ) (cycles : UInt64),
          Standing settings index channel transfer memory elapsed looks block →
            (block.tick cycles).Ensures fun (_, after) => Standing settings index channel transfer
              memory (elapsed + cycles.toNat) looks after := by
        intro elapsed block cycles standing result ticked
        obtain ⟨_, again, standing⟩ := standing.tick launched (short_of_tick ticked)
        cases ticked.symm.trans again
        exact standing
      exact advance_ensures ticks standing.settled.punctual.within cycles standing _ advanced
  | look _ command touches done standing => exact standing.look launched touches done
  | aside _ command aside spares done standing => exact standing.aside aside spares done

theorem Standing.isPending_iff
    (standing : Standing settings index channel transfer memory elapsed looks block) :
    block.controller.IsPending Interrupt.dmaSources[index] ↔
      channel.completion transfer memory looks ≤ elapsed :=
  ⟨fun pending => Nat.not_lt.1 fun ahead => (standing.going ahead).1 pending, standing.finished⟩

/-- The registers of a channel can be read. -/
theorem read_succeeds {address : UInt32} (here : channelAt? address = some index) (width : Width) :
    (block.perform (.read width address)).Succeeds fun _ => True := by
  obtain ⟨inside, offset, rest, routed, found⟩ := mem_channelAt? here
  have part : (block.readPart width offset .dma).Succeeds fun _ => True := ⟨_, rfl, trivial⟩
  have reads : (block.read width address).Succeeds fun _ => True := by
    unfold Block.read
    rw [if_neg inside, routed]
    exact part.bind fun _ _ => .pure trivial
  exact reads.bind fun _ _ => .pure trivial

/-- A transfer under way, with units left and its deadline ahead, stands at its beginning. -/
theorem Settled.standing (settled : Settled settings block) (lone : block.dma.IsLone index)
    (active : block.dma.channels[index].transfer = some transfer) (waits : transfer.due ≠ none)
    (left : transfer.moved < transfer.total)
    (quiet : ¬ block.controller.IsPending Interrupt.dmaSources[index]) :
    Launched index block.dma.channels[index] transfer ∧
      Standing settings index block.dma.channels[index] transfer block.memory
        (lasted block.clock transfer) [] block := by
  have sound := settled.punctual.sound.channels index
  have performs := sound.sound transfer active
  obtain ⟨due, timed⟩ := Option.ne_none_iff_exists'.1 waits
  obtain ⟨_, time, early⟩ := settled.onTime index transfer active due timed
  rw [UInt64.lt_iff_toNat_lt, performs.toNat_duration] at early
  refine ⟨⟨sound.source, performs, due, timed, time⟩, settled, lone, ?_, ?_, ?_⟩
  · exact fun look none => absurd none List.not_mem_nil
  · intro late
    obtain due | ⟨look, exposed, _⟩ := Dma.Channel.completion_le_iff.1 late
    · exact absurd due (Nat.not_le.2 early)
    · exact absurd (Dma.Channel.exposedAt?_eq_some exposed).1 List.not_mem_nil
  · intro _
    refine ⟨quiet, rfl, 0, [], ?_, Dma.Channel.stage_zero active left block.memory⟩
    rintro (refused | all)
    · exact refused rfl
    · exact (UInt32.lt_iff_toNat_lt.1 left).ne all

/-- The interrupt of a transfer becomes pending when its time has come, or before that at the first
look at which a unit is due that the memory refuses. So the runs of two hosts that advance the clock
alike find it pending at the same cycle, however they look at the channel, unless an access is
refused and they do not come to look at the channel at the same cycle next. -/
theorem pending_of_history {start first second : Block μ} {looksToo : List Nat}
    (reached : Faithful settings start)
    (polled : ∀ deadline ∈ start.held, start.clock.Awaits deadline)
    (lone : start.dma.IsLone index)
    (active : start.dma.channels[index].transfer = some transfer) (waits : transfer.due ≠ none)
    (left : transfer.moved < transfer.total)
    (quiet : ¬ start.controller.IsPending Interrupt.dmaSources[index])
    (one : History index start (lasted start.clock transfer) elapsed looks first)
    (two : History index start (lasted start.clock transfer) elapsed looksToo second) :
    let channel := start.dma.channels[index]
    let source := Interrupt.dmaSources[index]
    (first.controller.IsPending source ↔
      channel.completion transfer start.memory looks ≤ elapsed) ∧
    (channel.refusedAt? transfer start.memory = none ∨
        channel.exposedAt? transfer start.memory looks
          = channel.exposedAt? transfer start.memory looksToo →
      (first.controller.IsPending source ↔ second.controller.IsPending source)) ∧
    (∀ cycles < Clock.horizon, (first.perform (.advance cycles)).Succeeds fun _ => True) ∧
    ∀ width address, channelAt? address = some index →
      (first.perform (.read width address)).Succeeds fun _ => True := by
  have settled : Settled settings start := ⟨reached.punctual, polled, index, lone⟩
  obtain ⟨launched, standing⟩ := settled.standing lone active waits left quiet
  have here := one.standing launched standing
  have there := two.standing launched standing
  refine ⟨here.isPending_iff, fun alike => ?_, fun cycles short => ?_, fun width address at_ => ?_⟩
  · have same : start.dma.channels[index].exposedAt? transfer start.memory looks
        = start.dma.channels[index].exposedAt? transfer start.memory looksToo := by
      refine alike.elim (fun taken => ?_) id
      rw [Dma.Channel.exposedAt?_of_none taken, Dma.Channel.exposedAt?_of_none taken]
    rw [here.isPending_iff, there.isPending_iff, completion, completion, same]
  · exact (here.settled.hop_succeeds _ short false).bind fun _ _ => .pure trivial
  · exact read_succeeds at_ width

/-- A transfer whose second unit the memory refuses, and two hosts that look at its channel at the
same cycle once that unit is due, one of them also before. -/
theorem pending_of_history_refused : ∃ (start first second : Block Ram) (transfer : Transfer),
    Faithful { dmaCycles := 10 } start ∧ start.dma.channels[(0 : Fin 2)].transfer = some transfer ∧
    History 0 start (lasted start.clock transfer) 25 [15, 25] first ∧
    History 0 start (lasted start.clock transfer) 25 [25] second ∧
    start.dma.channels[(0 : Fin 2)].refusedAt? transfer start.memory = some 20 ∧
    start.dma.channels[(0 : Fin 2)].completion transfer start.memory [15, 25] = 25 ∧
    first.controller.IsPending 7 ∧ second.controller.IsPending 7 := by
  have created : Timely { dmaCycles := 10 } true false
      (initial { dmaCycles := 10 } {} (Ram.ofList [1, 2, 3, 4, 5, 6, 7, 8])) :=
    .create (.fresh 0 0) (fun _ => rfl) rfl
  have moving := created.perform (.startTransfer 0 7 0 4 0) trivial rfl
  have channels : ∀ other : Fin Dma.channelCount, other ≠ 0 → other = 1 := by decide
  obtain ⟨start, first, second, transfer, faithful, polled, lone, active, waits, left, quiet, one,
      two, refused, finished, alike⟩ : ∃ (start first second : Block Ram) (transfer : Transfer),
      Faithful { dmaCycles := 10 } start ∧
      (∀ deadline ∈ start.held, start.clock.Awaits deadline) ∧ start.dma.IsLone 0 ∧
      start.dma.channels[(0 : Fin 2)].transfer = some transfer ∧ transfer.due ≠ none ∧
      transfer.moved < transfer.total ∧ ¬ start.controller.IsPending 7 ∧
      History 0 start (lasted start.clock transfer) 25 [15, 25] first ∧
      History 0 start (lasted start.clock transfer) 25 [25] second ∧
      start.dma.channels[(0 : Fin 2)].refusedAt? transfer start.memory = some 20 ∧
      start.dma.channels[(0 : Fin 2)].completion transfer start.memory [15, 25] = 25 ∧
      start.dma.channels[(0 : Fin 2)].exposedAt? transfer start.memory [15, 25]
        = start.dma.channels[(0 : Fin 2)].exposedAt? transfer start.memory [25] := by
    refine ⟨_, _, _, _, moving.faithful, moving.orderly.awaits, fun other apart => ?_, rfl,
      Option.some_ne_none _, by decide, by decide,
      (((History.start.advance 15 rfl).look (.read .word 0x1000) rfl rfl).advance 10 rfl).look
        (.read .word 0x1000) rfl rfl,
      (History.start.advance 25 rfl).look (.read .word 0x1000) rfl rfl, rfl, rfl, rfl⟩
    cases channels other apart
    rfl
  obtain ⟨here, same, _⟩ := pending_of_history faithful polled lone active waits left quiet one two
  have pending := here.2 finished.le
  exact ⟨start, first, second, transfer, faithful, active, one, two, refused, finished, pending,
    (same (.inr alike)).1 pending⟩

/-- A transfer that begins in a block at power-on, with a second unit that the memory refuses. A host
finds its interrupt pending at the cycle at which it reads the channel's registers, and another one
that does not read them finds it pending when the time of all four units has come. -/
theorem pending_unlike :
    let start : Block Ram := initial { dmaCycles := 10 } {} (Ram.ofList [1, 2, 3, 4, 5, 6, 7, 8])
    ∃ begun looked unlooked late : Block Ram, ∃ response first second third,
      (start.perform (.startTransfer 0 7 0 4 0)).outcome = .ok (response, begun) ∧
      (begun.performAll [.advance 25, .read .word 0x1000]).outcome = .ok (first, looked) ∧
      (begun.performAll [.advance 25, .advance 14]).outcome = .ok (second, unlooked) ∧
      (begun.performAll [.advance 25, .advance 14, .advance 1]).outcome = .ok (third, late) ∧
      looked.clock.now = 25 ∧ looked.controller.IsPending 7 ∧
      unlooked.clock.now = 39 ∧ ¬ unlooked.controller.IsPending 7 ∧
      late.clock.now = 40 ∧ late.controller.IsPending 7 := by
  refine ⟨_, _, _, _, _, _, _, _, rfl, rfl, rfl, rfl, rfl, ?_, rfl, ?_, rfl, ?_⟩
  · decide
  · decide
  · decide

end Block

end SocPeripherals
