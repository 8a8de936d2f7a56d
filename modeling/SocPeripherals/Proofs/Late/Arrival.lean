import SocPeripherals.Bus.Ram
import SocPeripherals.Proofs.Block.Hop
import SocPeripherals.Proofs.Block.PowerOn
import SocPeripherals.Proofs.Block.Reached
import SocPeripherals.Proofs.Stepping
import SocPeripherals.Proofs.Timer.Lost

/-!
# An advance comes to its end

An advance goes round a loop: it ticks to the next deadline or to its target, whichever comes first,
until the clock shows the target. Its first tick may take no cycles, where a deadline was placed at
the present one; every poll places its deadlines ahead, so that each of the others takes at least
one. No tick fails, however the block was left, unless a timer is polled when it is lost.
-/

namespace SocPeripherals

namespace Dma

variable {μ : Type} [Bus μ]

theorem Channel.clock_finish (channel : Channel) (timeless : channel.transfer.bind (·.due) = none)
    (clock : Clock) (failed : Bool) : (channel.finish clock failed).value.2 = clock := by
  unfold finish
  rw [timeless]
  rfl

theorem Channel.clock_advance {channel : Channel} {transfer : Transfer}
    (active : channel.transfer = some transfer) (timeless : transfer.due = none) (clock : Clock)
    (memory : μ) (target : UInt32) :
    (channel.advance clock memory target).value.2.1 = clock := by
  have keeps (position : Transfer.Position) (failed : Bool) :
      ((channel.arrive transfer position).finish clock failed).value.2 = clock :=
    clock_finish (channel.arrive transfer position) timeless clock failed
  unfold advance
  rw [active]
  dsimp only [Traced.value_bind]
  split
  next => exact keeps _ true
  next =>
    split
    next => exact keeps _ false
    next => rfl

/-- A poll finds the deadline of the transfer reached, so that there is none to forget. -/
theorem Channel.clock_poll (channel : Channel) (clock : Clock) (memory : μ) :
    (channel.poll clock memory).value.2.1 = clock := by
  by_cases ahead : ∀ deadline ∈ channel.held, clock.hasReached deadline.time = false
  · rw [poll_of_ahead ahead]
    rfl
  · obtain ⟨due, known, reached⟩ : ∃ due ∈ channel.held, clock.hasReached due.time = true := by
      simpa using ahead
    obtain ⟨transfer, active, timed⟩ := mem_held.1 known
    have going : (channel.letGo transfer).transfer = some { transfer with due := none } := rfl
    rw [poll_of_reached active timed reached, catchUp, going]
    dsimp only
    split
    next => rfl
    next => exact clock_advance going rfl clock memory _

theorem clock_poll (dma : Dma) (clock : Clock) (memory : μ) :
    (dma.poll clock memory).value.2.1 = clock :=
  (Channel.clock_poll _ _ _).trans (Channel.clock_poll dma.channels[0] clock memory)

end Dma

namespace Block

variable {μ : Type} [Bus μ] {block between after other : Block μ} {left target cycles : UInt64}

/-! ## The loop -/

/-- What remains of the loop: the ticks that it takes, whether one of them polled, and the block
that it ends with. It ends as soon as the clock shows the target. -/
inductive Loops (target : UInt64) : Block μ → List UInt64 → Bool → Block μ → Prop where
  | last {block after : Block μ} {polled : Bool}
      (ticked : (block.tick (block.nextStep (target - block.clock.now))).outcome
        = .ok (polled, after))
      (arrived : after.clock.now = target) :
      Loops target block [block.nextStep (target - block.clock.now)] polled after
  | more {block between after : Block μ} {ticks : List UInt64} {polled later : Bool}
      (ticked : (block.tick (block.nextStep (target - block.clock.now))).outcome
        = .ok (polled, between))
      (underway : between.clock.now ≠ target) (rest : Loops target between ticks later after) :
      Loops target block (block.nextStep (target - block.clock.now) :: ticks) (polled || later)
        after

/-! ## Polling -/

/-- Every timer can be polled at the present cycle. -/
def CanPoll (block : Block μ) : Prop :=
  ∀ index : Fin timerCount,
    block.timers[index].IsShort ∧ ¬ block.timers[index].IsLost block.clock

/-- What a poll leaves: the timers as they were or never lost from then on, and a clock at the same
cycle from which nothing was taken. -/
structure Polled (block after : Block μ) : Prop where
  timers : ∀ index : Fin timerCount, after.timers[index].IsShort ∧
    (after.timers[index] = block.timers[index] ∨ after.timers[index].IsNeverLost)
  now : after.clock.now = block.clock.now
  pending : block.clock.pending ⊆ after.clock.pending

omit [Bus μ] in
theorem Polled.trans (first : Polled block between) (second : Polled between after) :
    Polled block after where
  timers index := by
    obtain ⟨short, same | never⟩ := second.timers index
    · exact ⟨short, same ▸ (first.timers index).2⟩
    · exact ⟨short, .inr never⟩
  now := second.now.trans first.now
  pending := List.Subset.trans first.pending second.pending

omit [Bus μ] in
theorem CanPoll.polled_refl (ready : CanPoll block) : Polled block block where
  timers index := ⟨(ready index).1, .inl rfl⟩
  now := rfl
  pending := List.Subset.refl _

omit [Bus μ] in
theorem CanPoll.again (ready : CanPoll block) (polled : Polled block after) :
    CanPoll after := by
  intro index
  obtain ⟨short, same | never⟩ := polled.timers index
  · refine ⟨short, fun lost => (ready index).2 ?_⟩
    rw [same] at lost
    exact lost.congr polled.now.symm
  · exact ⟨short, never _⟩

omit [Bus μ] in
/-- A timer that is not lost can be polled, without an effect on the others. -/
theorem pollTimer_succeeds {index : Fin timerCount} (short : block.timers[index].IsShort)
    (found : ¬ block.timers[index].IsLost block.clock) :
    (block.pollTimer index).Succeeds fun after =>
      after.timers[index].IsShort ∧
      (after.timers[index] = block.timers[index] ∨ after.timers[index].IsNeverLost) ∧
      (∀ other, other ≠ index → after.timers[other] = block.timers[other]) ∧
      after.clock.now = block.clock.now ∧ block.clock.pending ⊆ after.clock.pending := by
  obtain ⟨⟨timer, clock⟩, done, kept, now, pending⟩ :=
    block.timers[index].poll_succeeds short found
  have does : Timer.Does (fun _ => False) block.timers[index] block.clock timer clock := .poll done
  have polls : (Device.poll block.timers[index] block.clock :
      Run Signal (Unit × Timer × Clock)).Succeeds fun result => result = ((), timer, clock) :=
    .bind ⟨_, done, rfl⟩ fun _ same => .pure (same ▸ rfl)
  refine ((relay_answers block.controller polls).bind ?_).bind fun _ known => .pure known
  rintro ⟨_, controller⟩ rfl
  refine .pure ⟨?_, ?_, fun other apart => ?_, now, pending⟩
  · rw [Parts.getElem_set_self]
    exact does.isShort (fun _ => False.elim) short
  · rw [Parts.getElem_set_self]
    exact kept
  · exact Parts.getElem_set_of_ne _ _ apart.symm

omit [Bus μ] in
theorem CanPoll.pollTimer (ready : CanPoll block) (index : Fin timerCount) :
    (block.pollTimer index).Succeeds (Polled block) := by
  refine (pollTimer_succeeds (ready index).1 (ready index).2).imp ?_
  rintro after ⟨short, kept, others, now, pending⟩
  refine ⟨fun other => ?_, now, pending⟩
  by_cases same : other = index
  · subst same
    exact ⟨short, kept⟩
  · rw [others other same]
    exact ⟨(ready other).1, .inl rfl⟩

omit [Bus μ] in
theorem CanPoll.pollUart (ready : CanPoll block) (index : Fin uartCount) :
    (block.pollUart index).Succeeds (Polled block) := by
  have done : (block.pollUart index).Succeeds fun _ => True := ⟨_, rfl, trivial⟩
  refine (done.and (pollUart_ensures block index)).imp ?_
  rintro _ ⟨-, signals, rfl⟩
  exact { ready.polled_refl with }

theorem CanPoll.pollDma (ready : CanPoll block) :
    (block.onDma Device.poll).Succeeds fun (_, after) => Polled block after := by
  have kept := Dma.clock_poll block.dma block.clock block.memory
  exact ⟨_, rfl, { ready.polled_refl with
    now := congrArg Clock.now kept
    pending := (congrArg Clock.pending kept).symm ▸ List.Subset.refl _ }⟩

omit [Bus μ] in
theorem CanPoll.foldlM {ι : Type} {step : Block μ → ι → Run Event (Block μ)}
    (steps : ∀ {block : Block μ} (part : ι), CanPoll block →
      (step block part).Succeeds (Polled block))
    (parts : List ι) (ready : CanPoll block) :
    (parts.foldlM step block).Succeeds (Polled block) := by
  induction parts generalizing block with
  | nil => exact .pure ready.polled_refl
  | cons part rest ih =>
      rw [List.foldlM_cons]
      refine (steps part ready).bind fun between first => ?_
      exact (ih (ready.again first)).imp fun _ second => first.trans second

/-- A block can be polled unless one of its timers is lost. -/
theorem CanPoll.poll (ready : CanPoll block) : block.poll.Succeeds (Polled block) := by
  unfold Block.poll
  refine (CanPoll.foldlM (fun part known => known.pollTimer part) _ ready).bind ?_
  intro first timers
  have ready := ready.again timers
  refine (CanPoll.foldlM (fun part known => known.pollUart part) _ ready).bind ?_
  intro second uarts
  refine (ready.again uarts).pollDma.bind ?_
  rintro ⟨_, after⟩ dma
  exact .pure (timers.trans (uarts.trans dma))

/-! ## Ticking -/

/-- Over so many cycles no poll finds a timer lost. -/
structure Steady (left : UInt64) (block : Block μ) : Prop where
  short : ∀ index : Fin timerCount, block.timers[index].IsShort
  found : ∀ index : Fin timerCount, block.timers[index].StaysFound left block.clock

/-- A tick up to the first deadline comes to its end, as many cycles later, with all that is pending
ahead. -/
theorem Steady.tick (steady : Steady left block) (within : block.clock.Within) (le : cycles ≤ left)
    (short : cycles < Clock.horizon)
    (first : ∀ deadline ∈ block.clock.pending, cycles ≤ block.clock.distance deadline.time) :
    (block.tick cycles).Succeeds fun (_, after) =>
      ((∃ deadline ∈ block.clock.pending, block.clock.distance deadline.time ≤ cycles) →
        Steady (left - cycles) after) ∧
      after.clock.now = block.clock.now + cycles ∧ after.clock.Upcoming := by
  have reaches (deadline : Deadline) (placed : deadline ∈ block.clock.pending) :
      (block.clock.moved cycles).hasReached deadline.time = true ↔
        block.clock.distance deadline.time ≤ cycles :=
    Clock.hasReached_moved_iff (within deadline placed) short
  have ticks : (block.tick cycles).Succeeds fun (_, after) =>
      ((∃ deadline ∈ block.clock.pending, block.clock.distance deadline.time ≤ cycles) →
        Steady (left - cycles) after) ∧ after.clock.now = block.clock.now + cycles := by
    unfold Block.tick increment
    rw [Clock.increment_of_lt short]
    refine .bind (.except rfl rfl : Run.Succeeds _ fun result => result = _) ?_
    rintro _ rfl
    dsimp only
    split
    next reached =>
      have due : ∃ deadline ∈ block.clock.pending,
          block.clock.distance deadline.time ≤ cycles := by
        obtain ⟨deadline, placed, reached⟩ := List.any_eq_true.1 reached
        exact ⟨deadline, placed, (reaches deadline placed).1 reached⟩
      have ready {clock : Clock} (now : clock.now = block.clock.now + cycles) :
          CanPoll { block with clock } := fun index =>
        ⟨steady.short index, (steady.found index).first le first due now⟩
      refine ((ready rfl).poll.and (poll_ahead _)).bind ?_
      rintro after ⟨polled, ahead⟩
      refine .pure ⟨fun _ => ⟨fun index => (polled.timers index).1, fun index => ?_⟩, polled.now⟩
      obtain ⟨-, same | never⟩ := polled.timers index
      · rw [same]
        refine (steady.found index).moved le first due polled.now
          (fun deadline placed further => ?_) fun expiry known => ?_
        · refine polled.pending (List.mem_filter.2 ⟨placed, ?_⟩)
          rw [Bool.not_eq_true', ← Bool.not_eq_true, reaches deadline placed]
          exact UInt64.not_le.2 further
        · have held : expiry ∈ after.timers[index].held := same ▸ known
          exact ahead expiry (mem_held_of_timer held)
      · exact never.staysFound
    next quiet =>
      refine .pure ⟨?_, rfl⟩
      rintro ⟨deadline, placed, soon⟩
      exact absurd (List.any_eq_true.2 ⟨deadline, placed, (reaches deadline placed).2 soon⟩) quiet
  refine (ticks.and (tick_upcoming within cycles)).imp ?_
  rintro ⟨reached, after⟩ ⟨⟨steady, now⟩, upcoming⟩
  exact ⟨steady, now, upcoming⟩

/-! ## The way to the target -/

/-- The ticks lead over so many cycles, and no further. -/
structure Arrives (left : UInt64) (block : Block μ) (ticks : List UInt64) (polled : Bool)
    (after : Block μ) : Prop where
  loops : Loops (block.clock.now + left) block ticks polled after
  now : after.clock.now = block.clock.now + left
  total : (ticks.map UInt64.toNat).sum = left.toNat

/-- One tick, and those after it. -/
theorem hop_arrives_succ (steps : Nat) (polled : Bool) (steady : Steady left block)
    (within : block.clock.Within) (short : left < Clock.horizon)
    (rest : block.nextStep left < left → ∀ (between : Block μ) (polled : Bool),
      Steady (left - block.nextStep left) between → between.clock.Upcoming →
      ∃ ticks later after,
        (hop steps between (left - block.nextStep left) polled []).outcome
          = .ok (polled || later, after) ∧
        Arrives (left - block.nextStep left) between ticks later after ∧
        ∀ tick ∈ ticks, 0 < tick) :
    ∃ ticks later after,
      (hop (steps + 1) block left polled []).outcome = .ok (polled || later, after) ∧
      Arrives left block (block.nextStep left :: ticks) later after ∧ ∀ tick ∈ ticks, 0 < tick := by
  obtain ⟨first, next⟩ := nextStep_cases block left
  have le : block.nextStep left ≤ left :=
    next.elim UInt64.le_of_eq fun less => UInt64.le_of_lt less.1
  have step : block.nextStep (block.clock.now + left - block.clock.now) = block.nextStep left := by
    congr 1
    grind
  obtain ⟨⟨reached, between⟩, ticked, steady, now, upcoming⟩ :=
    steady.tick within le (UInt64.lt_of_le_of_lt le short) first
  have goes : (block.tick (block.nextStep (block.clock.now + left - block.clock.now))).outcome
      = .ok (reached, between) := by
    rw [step]
    exact ticked
  rw [hop_succ, Run.bind_of_ok ticked]
  dsimp only
  rcases next with last | ⟨less, deadline, placed, soon⟩
  · rw [if_pos last.symm]
    have arrived : between.clock.now = block.clock.now + left := by rw [now, last]
    refine ⟨[], reached, between, rfl, ⟨?_, arrived, ?_⟩, by simp⟩
    · exact step ▸ Loops.last goes arrived
    · simp [last]
  · rw [if_neg (UInt64.ne_of_lt less).symm]
    obtain ⟨ticks, later, after, ran, arrives, positive⟩ := rest less between (polled || reached)
      (steady ⟨deadline, placed, UInt64.le_of_eq soon⟩) upcoming
    have target : between.clock.now + (left - block.nextStep left) = block.clock.now + left := by
      rw [now]
      grind
    have underway : between.clock.now ≠ block.clock.now + left := by
      rw [now]
      grind
    refine ⟨ticks, reached || later, after, ?_, ⟨?_, ?_, ?_⟩, positive⟩
    · rw [ran, Bool.or_assoc]
    · have loops := arrives.loops
      rw [target] at loops
      exact step ▸ Loops.more goes underway loops
    · exact arrives.now.trans target
    · rw [List.map_cons, List.sum_cons, arrives.total, UInt64.toNat_sub_of_le _ _ le]
      exact Nat.add_sub_cancel' (UInt64.le_iff_toNat_le.1 le)

/-- Once everything pending lies ahead, every tick takes at least one cycle, and they are enough. -/
theorem hop_arrives (steps : Nat) (enough : left.toNat < steps) (positive : 0 < left)
    (polled : Bool) (steady : Steady left block) (upcoming : block.clock.Upcoming)
    (short : left < Clock.horizon) :
    ∃ ticks later after,
      (hop steps block left polled []).outcome = .ok (polled || later, after) ∧
      Arrives left block ticks later after ∧ ∀ tick ∈ ticks, 0 < tick := by
  induction steps generalizing block left polled with
  | zero => exact absurd enough (Nat.not_lt_zero _)
  | succ steps ih =>
      have first : 0 < block.nextStep left := by
        obtain ⟨-, last | ⟨-, deadline, placed, next⟩⟩ := nextStep_cases block left
        · rwa [last]
        · exact next ▸ (upcoming deadline placed).1
      obtain ⟨ticks, later, after, ran, arrives, rest⟩ :=
        hop_arrives_succ steps polled steady upcoming.within short
          fun less between polled steady upcoming => by
            have fewer : (left - block.nextStep left).toNat < steps := by
              rw [UInt64.toNat_sub_of_le _ _ (UInt64.le_of_lt less)]
              rw [UInt64.lt_iff_toNat_lt] at first less
              rw [UInt64.toNat_zero] at first
              omega
            exact ih fewer (by grind) polled steady upcoming (by grind)
      refine ⟨_, later, after, ran, arrives, ?_⟩
      rintro tick (_ | ⟨_, listed⟩)
      · exact first
      · exact rest tick listed

/-! ## Hosts -/

/-- The steps of the saved periods are no longer than a prescale can ask for. -/
def Snapshot.IsShort (saved : Snapshot) : Prop :=
  ∀ part ∈ saved.timers, part.running = true → part.stepCycles.toNat ≤ 256

/-- The steps of the periods are no longer than a prescale can ask for. -/
def IsShort (block : Block μ) : Prop :=
  ∀ index : Fin timerCount, block.timers[index].IsShort

omit [Bus μ] in
theorem IsShort.snapshot (short : block.IsShort) : block.snapshot.IsShort := by
  intro part listed
  obtain ⟨index, rfl⟩ := mem_saved.1 listed
  exact short index

theorem isShort_lasting : Lasting Snapshot.IsShort (IsShort : Block μ → Prop) where
  act := by
    intro block after short act
    cases act with
    | timer index does =>
        refine fun other => (holds_set (fun timer _ => timer.IsShort) block.timers ?_).2 other
          (short other)
        refine does.isShort ?_ (short index)
        rintro part ⟨saved, known, listed⟩
        exact known part listed
    | misc | controller | uart | channel => exact short
  moved := by
    intro block after cycles reached short done
    obtain ⟨clock, -, rfl⟩ := of_increment done
    exact short

theorem IsShort.perform (short : block.IsShort) {command : Command}
    (respects : command.Respects Snapshot.IsShort) :
    (block.perform command).Ensures fun (_, after) => after.IsShort := by
  cases command with
  | placeDeadline cycles => exact .bind (.trivial _) fun _ _ => .pure short
  | _ => exact isShort_lasting.perform short (by trivial) respects

/-- A block as its host can leave it, on a clock that others use as well. What is restored has been
saved from such a block, whatever was due then. -/
inductive Hosted : Block μ → Prop where
  | create {settings : Settings} {clock : Clock} {memory : μ} {block : Block μ} (used : clock.Used)
      (created : create settings clock memory = .ok block) : Hosted block
  | perform {block after : Block μ} {response : Response} (hosted : Hosted block)
      (command : Command) (own : command.Respects fun _ => False)
      (done : (block.perform command).outcome = .ok (response, after)) : Hosted after
  | restore {block other after : Block μ} {response : Response} (hosted : Hosted block)
      (saved : Hosted other)
      (done : (block.perform (.restore other.snapshot)).outcome = .ok (response, after)) :
      Hosted after
  | cancel {block : Block μ} {deadline : Deadline} {clock : Clock} (hosted : Hosted block)
      (done : block.clock.cancel deadline = .ok clock) : Hosted { block with clock }

theorem Hosted.reached (hosted : block.Hosted) : block.Reached := by
  induction hosted with
  | create used created => exact .create used created
  | perform _ command _ done reached => exact .perform reached command done
  | restore _ _ done reached _ => exact .perform reached _ done
  | cancel _ done reached => exact .cancel reached done

theorem Hosted.isShort (hosted : block.Hosted) : block.IsShort := by
  induction hosted with
  | create used created =>
      obtain ⟨-, rfl⟩ := of_create created
      intro index
      rw [timer_initial]
      exact fun running => absurd running Bool.false_ne_true
  | perform _ command own done short =>
      refine short.perform ?_ _ done
      cases command with
      | restore saved => exact own.elim
      | _ => trivial
  | restore _ _ done short shortOther =>
      have own : (Command.restore _).Respects Snapshot.IsShort := shortOther.snapshot
      exact short.perform own _ done
  | cancel _ _ short => exact short

/-- However the block was left and whatever others have placed on its clock, an advance by less than
the horizon comes to its end with the clock at its target, unless the first poll to find a timer due
finds it lost. It is the loop that runs: the ticks that it takes add up to the cycles it was asked
for, so that none goes past the target, no tick fails, and each but the first takes at least one
cycle. -/
theorem advance_arrives (hosted : block.Hosted) (short : cycles < Clock.horizon)
    (found : ∀ index : Fin timerCount, ∀ passed ≤ cycles,
      block.timers[index].MeetsPoll block.clock passed →
        ¬ block.timers[index].IsLost (block.clock.moved passed)) :
    ∃ ticks polled after, Loops (block.clock.now + cycles) block ticks polled after ∧
      (block.advance cycles).outcome = .ok (polled, after) ∧
      after.clock.now = block.clock.now + cycles ∧
      (ticks.map UInt64.toNat).sum = cycles.toNat ∧ ∀ tick ∈ ticks.tail, 0 < tick := by
  have steady : Steady cycles block := ⟨hosted.isShort, found⟩
  obtain ⟨ticks, later, after, ran, arrives, rest⟩ :=
    hop_arrives_succ (cycles.toNat + 1) false steady hosted.reached.within short
      fun less between polled steady upcoming => by
        refine hop_arrives _ ?_ (by grind) polled steady upcoming (by grind)
        rw [UInt64.toNat_sub_of_le _ _ (UInt64.le_of_lt less)]
        omega
  exact ⟨_, later, after, arrives.loops, ran, arrives.now, arrives.total, rest⟩

/-- A block whose timer comes back two cycles after the end of its period, with a deadline at the
present cycle, and an advance past a deadline that another has placed. -/
theorem advance_arrives_due : ∃ block : Block Ram, block.Hosted ∧
    block.clock.pending.map (fun deadline => block.clock.distance deadline.time) = [5, 0] ∧
    ∃ ticks polled after, Loops (block.clock.now + 20) block ticks polled after ∧
      (block.advance 20).outcome = .ok (polled, after) ∧
      after.clock.now = block.clock.now + 20 ∧
      (ticks.map UInt64.toNat).sum = 20 ∧ ∀ tick ∈ ticks.tail, 0 < tick := by
  obtain ⟨block, hosted, waits, now, ⟨expiry, phase⟩, length, idle⟩ : ∃ block : Block Ram,
      block.Hosted ∧
      block.clock.pending.map (fun deadline => block.clock.distance deadline.time) = [5, 0] ∧
      block.clock.now = 12 ∧ (∃ expiry, block.timers[0].phase = .running 0 expiry) ∧
      block.timers[0].latch.period = .ok 10 ∧
      ∀ index : Fin timerCount, index ≠ 0 → block.timers[index].phase = .stopped := by
    have created : Hosted (initial {} {} Ram.empty) :=
      .create (.fresh 0 0) (rfl : create {} {} Ram.empty = _)
    have counting := created.perform (.write .word 0x1404 9) trivial rfl
    have running := counting.perform (.write .word 0x1400 3) trivial rfl
    have missed := running.perform (.increment 12) trivial rfl
    have restored := missed.restore missed rfl
    have shared := restored.perform (.placeDeadline 5) trivial rfl
    exact ⟨_, shared, rfl, rfl, ⟨_, rfl⟩, rfl, by decide⟩
  refine ⟨block, hosted, waits, advance_arrives hosted (by decide) ?_⟩
  intro index passed le _
  by_cases first : index = 0
  · subst first
    rintro ⟨_, _, _, _, running, -, -, lasts, -, ahead, -⟩
    cases phase.symm.trans running
    cases length.symm.trans lasts
    simp only [Clock.moved, Clock.distance, Clock.horizon, now] at ahead
    grind
  · exact Timer.isNeverLost_of_stopped (idle index first) _

/-- A timer that is left alone for so long, saved and restored on the way, is lost. -/
theorem advance_fails_lost : ∃ block : Block Ram, block.Hosted ∧
    (block.advance 1).outcome = .error .deadlineTooFar := by
  have created : Hosted (initial {} {} Ram.empty) :=
    .create (.fresh 0 0) (rfl : create {} {} Ram.empty = _)
  have counting := created.perform (.write .halfWord 0x1404 9) trivial rfl
  have running := counting.perform (.write .word 0x1400 3) trivial rfl
  have missed := running.perform (.increment 0x4000000000000000) trivial rfl
  have restored := missed.restore missed rfl
  have later := restored.perform (.increment 0x400000000000000f) trivial rfl
  have lost := later.restore later rfl
  exact ⟨_, lost, rfl⟩

end Block

end SocPeripherals
