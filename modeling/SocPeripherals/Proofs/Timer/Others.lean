import SocPeripherals.Proofs.Isolation.Block
import SocPeripherals.Proofs.Late.Request
import SocPeripherals.Proofs.Signals
import SocPeripherals.Proofs.Timer.Periods

/-!
# A timer among the other parts

A timer shares its block with other parts, which are polled with it, are accessed and use the same
clock. None of them moves the timer, tells of its expiry, asks for its interrupt or takes its
deadline off the clock.
-/

namespace SocPeripherals

open Block (timerCount uartCount)
open Interrupt (timerSources)

/-! ## Signals of others -/

/-- The signal neither tells that the period of a timer is over nor asks for its interrupt. -/
def Signal.IsForeign (index : Fin timerCount) (signal : Signal) : Prop :=
  signal ≠ .note (.timerExpired index.val) ∧ signal ≠ .interrupt timerSources[index]

variable {index other : Fin timerCount} {signal : Signal}

theorem Signal.IsOfAccess.isForeign (of : signal.IsOfAccess) : signal.IsForeign index := by
  constructor
  · rintro rfl
    exact of
  · rintro rfl
    exact of

theorem Timer.Owns.isForeign {timer : Timer} (owns : timer.Owns signal)
    (sound : Timer.Sound other.val timerSources[other] timer) (apart : other ≠ index) :
    signal.IsForeign index := by
  have sources : ∀ first second : Fin timerCount,
      timerSources[first] = timerSources[second] → first = second := by decide
  constructor
  · rintro rfl
    have same : index.val = timer.index := owns
    exact apart (Fin.ext (same.trans sound.index).symm)
  · rintro rfl
    have same : timerSources[index] = timer.source := owns
    exact apart (sources index other (same.trans sound.source)).symm

theorem Uart.Owns.isForeign {uart : Uart} (owns : uart.Owns signal) {number : Fin uartCount}
    {room : Nat} (sound : Uart.Sound number.val Interrupt.uartSources[number] room uart) :
    signal.IsForeign index := by
  have sources : ∀ (index : Fin timerCount) (number : Fin uartCount),
      timerSources[index] ≠ Interrupt.uartSources[number] := by decide
  constructor
  · rintro rfl
    exact owns
  · rintro rfl
    have same : timerSources[index] = uart.source := owns
    exact sources index number (same.trans sound.source)

theorem Dma.Owns.isForeign {dma : Dma} (owns : dma.Owns signal) {speed : UInt64}
    (sound : ∀ number : Fin Dma.channelCount, Dma.Channel.Sound number.val
      Interrupt.dmaSources[number] speed dma.channels[number]) : signal.IsForeign index := by
  have sources : ∀ (index : Fin timerCount) (number : Fin Dma.channelCount),
      timerSources[index] ≠ Interrupt.dmaSources[number] := by decide
  obtain of | ⟨number, owns⟩ := owns
  · exact of.isForeign
  · constructor
    · rintro rfl
      exact owns
    · rintro rfl
      have same : timerSources[index] = dma.channels[number].source := owns
      exact sources index number (same.trans (sound number).source)

/-- The interrupt controller does not tell of timers. -/
theorem Event.IsOfController.ne_timerExpired {event : Event} (of : event.IsOfController)
    (number : Nat) : event ≠ .note (.timerExpired number) := by
  rintro rfl
  exact of

theorem Interrupt.timerSource_lt : ∀ index : Fin timerCount,
    timerSources[index] < Interrupt.sourceCount := by decide

/-! ## What is heard of them -/

namespace Interrupt.Controller

variable {controller : Controller} {signals : List Signal}

theorem count_hear (controller : Controller) (signal : Signal) (number : Nat) :
    (controller.hear signal).signals.count (.note (.timerExpired number))
      = [signal].count (.note (.timerExpired number)) := by
  cases signal with
  | note remark => simp [hear, List.count_cons]
  | interrupt source =>
      have silent := (controller.hear (.interrupt source)).signals.count_eq_zero.2 fun told =>
        (drive_signalsOnly _ _ told).ne_timerExpired number rfl
      rw [silent]
      rfl
  | transmit uart byte => rfl
  | host call => rfl

/-- Every timer's expiry is heard as often as the timer tells of it. -/
theorem count_hearAll (controller : Controller) (signals : List Signal) (number : Nat) :
    (controller.hearAll signals).signals.count (.note (.timerExpired number))
      = signals.count (.note (.timerExpired number)) := by
  induction signals generalizing controller with
  | nil => rfl
  | cons signal rest ih =>
      rw [hearAll, Traced.signals_bind, List.count_append, ih, count_hear, ← List.count_append]
      rfl

theorem relay_tells {α : Type} (controller : Controller) (run : Run Signal α) :
    (controller.relay run).Tells fun (answer, heard) events =>
      run.outcome = .ok answer ∧ heard = (controller.hearAll run.signals).value ∧
        events = (controller.hearAll run.signals).signals := by
  rintro ⟨answer, heard⟩ done
  obtain ⟨ran, rfl⟩ := controller.relay_ensures (.own run) _ done
  exact ⟨ran, rfl, rfl⟩

end Interrupt.Controller

namespace Block

variable {μ α : Type} {block between after : Block μ} {settings : Settings}
  {events further : List Event}

/-! ## What leaves a timer alone -/

/-- The timer stays as it is, and its expiry is not told. -/
structure PassesOver (index : Fin timerCount) (block after : Block μ) (events : List Event) :
    Prop where
  timer : after.timers[index] = block.timers[index]
  untold : .note (.timerExpired index.val) ∉ events

/-- Its interrupt is not asked for either, and no request for it is forgotten. -/
structure Ignores (index : Fin timerCount) (block after : Block μ) (events : List Event) :
    Prop extends PassesOver index block after events where
  unasked : after.controller.IsPending timerSources[index] ↔
    block.controller.IsPending timerSources[index]

theorem Ignores.refl (index : Fin timerCount) (block : Block μ) : Ignores index block block [] :=
  ⟨⟨rfl, List.not_mem_nil⟩, Iff.rfl⟩

theorem Ignores.trans (first : Ignores index block between events)
    (second : Ignores index between after further) :
    Ignores index block after (events ++ further) where
  timer := second.timer.trans first.timer
  untold told := (List.mem_append.1 told).elim first.untold second.untold
  unasked := second.unasked.trans first.unasked

/-- What others signal is heard without a word of the timer. -/
theorem hearAll_ignores {controller : Interrupt.Controller} (driven : controller.IsDriven)
    {signals : List Signal} (foreign : ∀ signal ∈ signals, signal.IsForeign index) :
    .note (.timerExpired index.val) ∉ (controller.hearAll signals).signals ∧
      ((controller.hearAll signals).value.IsPending timerSources[index] ↔
        controller.IsPending timerSources[index]) := by
  constructor
  · rw [← List.count_eq_zero, controller.count_hearAll, List.count_eq_zero]
    exact fun told => (foreign _ told).1 rfl
  · have heard := Interrupt.Controller.hearAll_heard driven signals
    rw [heard.isPending_iff (Interrupt.timerSource_lt index)]
    refine or_iff_left fun asked => ?_
    obtain ⟨signal, told, asks⟩ := List.mem_filterMap.1 asked
    cases signal with
    | interrupt source =>
        cases asks
        exact (foreign _ told).2 rfl
    | _ => contradiction

theorem onTimer_ignores (sound : Sound settings block) (apart : other ≠ index)
    {action : Timer → Clock → Run Signal (α × Timer × Clock)}
    (owns : (action block.timers[other] block.clock).SignalsOnly block.timers[other].Owns) :
    (block.onTimer other action).Tells fun (_, after) events =>
      Ignores index block after events := by
  unfold onTimer
  refine .conclude (block.controller.relay_tells _) ?_
  rintro ⟨⟨answer, timer, clock⟩, _⟩ _ ⟨-, rfl, rfl⟩
  obtain ⟨untold, unasked⟩ := hearAll_ignores sound.driven fun signal told =>
    (owns signal told).isForeign (sound.timers other) apart
  exact ⟨_, rfl, ⟨Parts.getElem_set_of_ne _ _ apart, untold⟩, unasked⟩

theorem onUart_ignores (index : Fin timerCount) (sound : Sound settings block)
    {number : Fin uartCount}
    {action : Uart → Clock → Run Signal (α × Uart × Clock)}
    (owns : (action block.uarts[number] block.clock).SignalsOnly block.uarts[number].Owns) :
    (block.onUart number action).Tells fun (_, after) events =>
      Ignores index block after events := by
  unfold onUart
  refine .conclude (block.controller.relay_tells _) ?_
  rintro ⟨⟨answer, uart, clock⟩, _⟩ _ ⟨-, rfl, rfl⟩
  obtain ⟨untold, unasked⟩ := hearAll_ignores sound.driven fun signal told =>
    (owns signal told).isForeign (sound.uarts number)
  exact ⟨_, rfl, ⟨rfl, untold⟩, unasked⟩

theorem onDma_ignores (index : Fin timerCount) (sound : Sound settings block)
    {action : Dma.Attached μ → Clock → Run Signal (α × Dma.Attached μ × Clock)}
    (owns : (action ⟨block.dma, block.memory⟩ block.clock).SignalsOnly block.dma.Owns) :
    (block.onDma action).Tells fun (_, after) events => Ignores index block after events := by
  unfold onDma
  refine .conclude (block.controller.relay_tells _) ?_
  rintro ⟨⟨answer, attached, clock⟩, _⟩ _ ⟨-, rfl, rfl⟩
  obtain ⟨untold, unasked⟩ := hearAll_ignores sound.driven fun signal told =>
    (owns signal told).isForeign sound.channels
  exact ⟨_, rfl, ⟨rfl, untold⟩, unasked⟩

/-! ## Polls -/

theorem pollTimer_ignores (sound : Sound settings block) (apart : other ≠ index) :
    (block.pollTimer other).Tells fun after events => Ignores index block after events := by
  have owns : (Device.poll block.timers[other] block.clock).SignalsOnly block.timers[other].Owns :=
    .bind (block.timers[other].poll_owns block.clock) (.trivial _) fun _ _ => .pure _
  refine .conclude (onTimer_ignores sound apart owns) ?_
  rintro ⟨_, after⟩ events ignores
  exact ⟨_, rfl, ignores⟩

theorem pollUart_ignores (index : Fin timerCount) (sound : Sound settings block)
    (number : Fin uartCount) :
    (block.pollUart number).Tells fun after events => Ignores index block after events := by
  have owns : (Device.poll block.uarts[number] block.clock).SignalsOnly block.uarts[number].Owns :=
    .bind (.traced (block.uarts[number].poll_owns block.clock)) (.trivial _) fun _ _ => .pure _
  refine .conclude (onUart_ignores index sound owns) ?_
  rintro ⟨_, after⟩ events ignores
  exact ⟨_, rfl, ignores⟩

variable [Bus μ]

theorem pollDma_ignores (index : Fin timerCount) (sound : Sound settings block) :
    (block.onDma Device.poll).Tells fun (_, after) events => Ignores index block after events :=
  onDma_ignores index sound
    (.bind (.traced (block.dma.poll_owns block.clock block.memory)) (.trivial _) fun _ _ => .pure _)

/-- Acts keep a block sound and take no time. -/
theorem Acts.stays (acts : Acts (fun _ => False) block after) (sound : Sound settings block) :
    Sound settings after ∧ after.clock.now = block.clock.now :=
  ⟨(sound_lasting settings).acts sound acts,
    (acts.follows UInt64.le_rfl fun _ never => never.elim).now⟩

/-- Steps over some parts, none of which is the timer. -/
theorem foldlM_ignores {ι : Type} {step : Block μ → ι → Run Event (Block μ)}
    (acts : ∀ block part, (step block part).Ensures fun after => Acts (fun _ => False) block after)
    {parts : List ι} (ignores : ∀ (block : Block μ), ∀ part ∈ parts, Sound settings block →
      (step block part).Tells fun after events => Ignores index block after events)
    (sound : Sound settings block) :
    (parts.foldlM step block).Tells fun after events => Ignores index block after events ∧
      Sound settings after ∧ after.clock.now = block.clock.now := by
  induction parts generalizing block with
  | nil => exact .pure ⟨.refl index block, sound, rfl⟩
  | cons part rest ih =>
      rw [List.foldlM_cons]
      have first := (ignores block part List.mem_cons_self sound).and (acts block part)
      refine .bind first ?_
      rintro between events ⟨ignored, acted⟩
      obtain ⟨sound, now⟩ := acted.stays sound
      have others (block : Block μ) (part : ι) (listed : part ∈ rest) :=
        ignores block part (List.mem_cons_of_mem _ listed)
      refine (ih others sound).imp ?_
      rintro after further ⟨ignoredRest, soundAfter, nowAfter⟩
      exact ⟨ignored.trans ignoredRest, soundAfter, nowAfter.trans now⟩

/-! ## The timer's own poll -/

/-- What comes of a timer of a block that is polled so many cycles after it was started, no later
than its deadline: the cycles between, by which the poll comes after the last one. -/
structure Serviced (index : Fin timerCount) (timer : Timer) (begun : UInt64) (elapsed cycles : Nat)
    (block after : Block μ) (events : List Event) : Prop where
  runs : timer.Runs begun (elapsed + cycles) after.timers[index]
  expiries : timer.expiries (elapsed + cycles) = timer.expiries elapsed
    ++ List.replicate (events.count (.note (.timerExpired index.val))) (elapsed + cycles)
  asks : after.controller.IsPending timerSources[index] ↔
    block.controller.IsPending timerSources[index] ∨
      ∃ cycle ∈ timer.expiries (elapsed + cycles), elapsed < cycle

variable {timer : Timer} {begun : UInt64} {elapsed cycles : Nat}

omit [Bus μ] in
theorem Ignores.serviced (ignores : Ignores index block between events)
    (serviced : Serviced index timer begun elapsed cycles between after further) :
    Serviced index timer begun elapsed cycles block after (events ++ further) where
  runs := serviced.runs
  expiries := by
    rw [List.count_append, List.count_eq_zero.2 ignores.untold, Nat.zero_add]
    exact serviced.expiries
  asks := serviced.asks.trans (or_congr_left ignores.unasked)

omit [Bus μ] in
theorem Serviced.ignored (serviced : Serviced index timer begun elapsed cycles block between events)
    (ignores : Ignores index between after further) :
    Serviced index timer begun elapsed cycles block after (events ++ further) where
  runs := ignores.timer ▸ serviced.runs
  expiries := by
    rw [List.count_append, List.count_eq_zero.2 ignores.untold, Nat.add_zero]
    exact serviced.expiries
  asks := ignores.unasked.trans serviced.asks

omit [Bus μ] in
/-- No time has gone by in which the timer could have expired. -/
theorem Serviced.untold (serviced : Serviced index timer begun elapsed 0 block after events) :
    .note (.timerExpired index.val) ∉ events := by
  have none := List.self_eq_append_right.1 serviced.expiries
  exact List.count_eq_zero.1 (List.replicate_eq_nil_iff _ |>.1 none)

omit [Bus μ] in
theorem pollTimer_services (sound : Sound settings block)
    (runs : timer.Runs begun elapsed block.timers[index])
    (now : block.clock.now = begun + UInt64.ofNat (elapsed + cycles))
    (within : timer.Goes elapsed → cycles ≤ timer.left elapsed) :
    (block.pollTimer index).Tells fun after events =>
      Serviced index timer begun elapsed cycles block after events := by
  have number : timer.index = index.val := runs.index_eq.symm.trans (sound.timers index).index
  have source : timer.source = timerSources[index] :=
    runs.source_eq.symm.trans (sound.timers index).source
  have polls := (runs.poll now within).ensures
  have acts : (block.onTimer index Device.poll).Tells fun (_, after) events =>
      Serviced index timer begun elapsed cycles block after events := by
    unfold onTimer
    refine .conclude (block.controller.relay_tells _) ?_
    rintro ⟨⟨_, current, clock⟩, _⟩ _ ⟨done, rfl, rfl⟩
    obtain ⟨⟨current', clock'⟩, polled, same⟩ := Run.outcome_bind_eq_ok.1 done
    cases same
    obtain ⟨runs, expiries, asks⟩ := polls _ polled
    have told : (Device.poll block.timers[index] block.clock).signals
        = (block.timers[index].poll block.clock).signals := by
      refine (congrArg Run.signals (Run.bind_of_ok polled _)).trans ?_
      exact List.append_nil _
    have heard := Interrupt.Controller.hearAll_heard sound.driven
      (block.timers[index].poll block.clock).signals
    rw [number] at expiries
    rw [source] at asks
    refine ⟨_, rfl, ?_, ?_, ?_⟩
    · dsimp only
      rw [Parts.getElem_set_self]
      exact runs
    · rw [Interrupt.Controller.count_hearAll, told]
      exact expiries
    · dsimp only
      rw [told, heard.isPending_iff (Interrupt.timerSource_lt index), asks]
  refine .conclude acts ?_
  rintro ⟨_, after⟩ events serviced
  exact ⟨_, rfl, serviced⟩

/-- Among the timers of a list, each of which is polled, one is serviced. -/
theorem pollTimers_services {parts : List (Fin timerCount)} (different : parts.Nodup)
    (listed : index ∈ parts) (sound : Sound settings block)
    (runs : timer.Runs begun elapsed block.timers[index])
    (now : block.clock.now = begun + UInt64.ofNat (elapsed + cycles))
    (within : timer.Goes elapsed → cycles ≤ timer.left elapsed) :
    (parts.foldlM pollTimer block).Tells fun after events =>
      Serviced index timer begun elapsed cycles block after events ∧ Sound settings after := by
  induction parts generalizing block with
  | nil => contradiction
  | cons part rest ih =>
      obtain ⟨apart, different⟩ := List.nodup_cons.1 different
      rw [List.foldlM_cons]
      by_cases own : part = index
      · subst own
        have services := (pollTimer_services sound runs now within).and
          (pollTimer_acts (fun _ => False) block part)
        refine .bind services ?_
        rintro between events ⟨serviced, acted⟩
        have others (block : Block μ) (other : Fin timerCount) (listed : other ∈ rest)
            (sound : Sound settings block) :=
          pollTimer_ignores sound (ne_of_mem_of_not_mem listed apart)
        refine (foldlM_ignores (pollTimer_acts _) others (acted.stays sound).1).imp ?_
        rintro after further ⟨ignores, sound, -⟩
        exact ⟨serviced.ignored ignores, sound⟩
      · have first := (pollTimer_ignores sound own).and
          (pollTimer_acts (fun _ => False) block part)
        refine .bind first ?_
        rintro between events ⟨ignores, acted⟩
        obtain ⟨sound, same⟩ := acted.stays sound
        have listed := (List.mem_cons.1 listed).resolve_left fun same => own same.symm
        refine (ih different listed sound (ignores.timer ▸ runs) (same.trans now)).imp ?_
        rintro after further ⟨serviced, sound⟩
        exact ⟨ignores.serviced serviced, sound⟩

/-- A poll of the block services its timer, whatever it polls besides. -/
theorem poll_services (sound : Sound settings block)
    (runs : timer.Runs begun elapsed block.timers[index])
    (now : block.clock.now = begun + UInt64.ofNat (elapsed + cycles))
    (within : timer.Goes elapsed → cycles ≤ timer.left elapsed) :
    block.poll.Tells fun after events =>
      Serviced index timer begun elapsed cycles block after events := by
  have listed : ∀ index : Fin timerCount, index ∈ [0, 1, 2, 3] := by decide
  unfold poll
  refine .bind (pollTimers_services (by decide) (listed index) sound runs now within) ?_
  rintro first events ⟨serviced, sound⟩
  refine .bind (foldlM_ignores (pollUart_acts _)
    (fun block number _ sound => pollUart_ignores index sound number) sound) ?_
  rintro second further ⟨uarts, sound, -⟩
  refine .conclude (pollDma_ignores index sound) ?_
  rintro ⟨_, third⟩ last channels
  exact ⟨_, rfl, serviced.ignored (uarts.trans channels)⟩

/-! ## The timer's deadline -/

/-- Whatever acts, the clock goes on waiting for the timer's deadline. -/
theorem Act.keeps_timer (act : Act (fun _ => False) block after) (sound : Sound settings block)
    (distinct : block.clock.Distinct block.held)
    (keeps : block.clock.Keeps block.timers[index].held) :
    after.clock.Keeps after.timers[index].held := by
  cases act with
  | misc => exact keeps
  | controller => exact keeps
  | timer other does =>
      have step := does.step UInt64.le_rfl fun _ ⟨_, never, _⟩ => never.elim
      by_cases own : other = index
      · subst own
        dsimp only
        rw [Parts.getElem_set_self]
        exact (step.serves.alone (distinct.ofLe (timer_le_held _)) keeps).2
      · dsimp only
        rw [Parts.getElem_set_of_ne _ _ own]
        exact step.serves.keepsOthers (distinct.ofLe (timers_le_held (Ne.symm own))) keeps
  | uart number does =>
      have step := does.step UInt64.le_rfl (fun _ ⟨_, never, _⟩ => never.elim)
        (fun _ ⟨_, never, _⟩ => never.elim) (sound.uarts number).silent
      exact step.serves.keepsOthers (distinct.ofLe (timer_uart_le_held index number)) keeps
  | channel number does =>
      have step := does.step UInt64.le_rfl (fun _ ⟨_, never, _⟩ => never.elim)
        fun _ ⟨_, never, _⟩ => never.elim
      exact step.serves.keepsOthers (distinct.ofLe (timer_channel_le_held index number)) keeps

theorem Acts.keeps_timer (acts : Acts (fun _ => False) block after) (sound : Sound settings block)
    (distinct : block.clock.Distinct block.held)
    (keeps : block.clock.Keeps block.timers[index].held) :
    after.clock.Keeps after.timers[index].held := by
  have kept : Sound settings after ∧ after.clock.Distinct after.held ∧
      after.clock.Keeps after.timers[index].held := by
    induction acts with
    | refl => exact ⟨sound, distinct, keeps⟩
    | tail _ act kept =>
        obtain ⟨sound, distinct, keeps⟩ := kept
        have step := act.step UInt64.le_rfl (fun _ never => never.elim)
          (fun _ never => never.elim) sound
        have unmixed := step.serves.distinct 0
        rw [add_zero, add_zero] at unmixed
        exact ⟨step.sound sound, unmixed distinct, act.keeps_timer sound distinct keeps⟩
  exact kept.2.2

/-! ## Commands -/

omit [Bus μ] in
/-- The timer itself may signal as others do, if it stays as it is. -/
theorem onTimer_passesOver {action : Timer → Clock → Run Signal (α × Timer × Clock)}
    (same : (action block.timers[index] block.clock).Ensures fun (_, timer, _) =>
      timer = block.timers[index])
    (foreign : (action block.timers[index] block.clock).SignalsOnly (·.IsForeign index)) :
    (block.onTimer index action).Tells fun (_, after) events =>
      PassesOver index block after events := by
  unfold onTimer
  refine .conclude (block.controller.relay_tells _) ?_
  rintro ⟨⟨answer, timer, clock⟩, _⟩ _ ⟨done, rfl, rfl⟩
  obtain rfl := same _ done
  refine ⟨_, rfl, ?_, ?_⟩
  · dsimp only
    rw [Parts.getElem_set_self]
  · rw [← List.count_eq_zero, Interrupt.Controller.count_hearAll, List.count_eq_zero]
    exact fun told => (foreign _ told).1 rfl

theorem readPart_passesOver (index : Fin timerCount) (sound : Sound settings block)
    (width : Width) (offset : UInt32) (part : Part) :
    (block.readPart width offset part).Tells fun (_, after) events =>
      PassesOver index block after events := by
  cases part with
  | misc =>
      refine (Run.Tells.traced _).imp ?_
      rintro _ _ ⟨rfl, rfl⟩
      have same := (block.readMisc_eq width offset).1
      refine ⟨congrArg (fun block : Block μ => block.timers[index]) same, fun told => ?_⟩
      exact (block.readMisc_signalsOnly width offset _ told).ne_timerExpired index.val rfl
  | controller =>
      refine (Run.Tells.traced _).imp ?_
      rintro _ _ ⟨rfl, rfl⟩
      have only : (block.onController fun controller => controller.read width offset).SignalsOnly
          Event.IsOfController :=
        .bind (block.controller.read_signalsOnly width offset) (.pure _)
      exact ⟨rfl, fun told => (only _ told).ne_timerExpired index.val rfl⟩
  | dma =>
      have owns : (Device.read (⟨block.dma, block.memory⟩ : Dma.Attached μ) block.clock width
          offset).SignalsOnly block.dma.Owns :=
        .bind (.traced (block.dma.read_owns block.clock block.memory width offset)) (.trivial _)
          fun _ _ => .pure _
      exact (onDma_ignores index sound owns).imp fun _ _ ignores => ignores.toPassesOver
  | timer other =>
      by_cases own : other = index
      · subst own
        refine onTimer_passesOver ?_ ?_
        · refine .bind (.traced _) ?_
          rintro _ rfl
          exact .pure (block.timers[other].read_eq block.clock width offset).1
        · refine .bind (.traced ?_) (.trivial _) fun _ _ => .pure _
          exact (block.timers[other].read_signalsOnly block.clock width offset).imp
            fun _ of => of.isForeign
      · have owns : (Device.read block.timers[other] block.clock width offset).SignalsOnly
            block.timers[other].Owns :=
          .bind (.traced (block.timers[other].read_owns block.clock width offset)) (.trivial _)
            fun _ _ => .pure _
        exact (onTimer_ignores sound own owns).imp fun _ _ ignores => ignores.toPassesOver
  | uart number =>
      have owns : (Device.read block.uarts[number] block.clock width offset).SignalsOnly
          block.uarts[number].Owns :=
        .bind (.traced (block.uarts[number].read_owns width offset)) (.trivial _) fun _ _ => .pure _
      exact (onUart_ignores index sound owns).imp fun _ _ ignores => ignores.toPassesOver

theorem writePart_passesOver (sound : Sound settings block) (width : Width) (offset value : UInt32)
    (part : Part)
    (missed : part = .timer index → Selection.find? Timer.registers width offset = none) :
    (block.writePart width offset value part).Tells fun (_, after) events =>
      PassesOver index block after events := by
  cases part with
  | misc =>
      refine .conclude (.traced _) ?_
      rintro _ _ ⟨rfl, rfl⟩
      refine ⟨_, rfl, ?_, fun told => ?_⟩
      · unfold writeMisc
        rw [Traced.value_bind]
        split <;> rfl
      · exact (block.writeMisc_signalsOnly width offset value _ told).ne_timerExpired index.val rfl
  | controller =>
      refine (Run.Tells.traced _).imp ?_
      rintro _ _ ⟨rfl, rfl⟩
      have only : (block.onController fun controller => do
          return ((), ← controller.write width offset value)).SignalsOnly Event.IsOfController :=
        .bind (.bind (block.controller.write_signalsOnly width offset value) (.pure _)) (.pure _)
      exact ⟨rfl, fun told => (only _ told).ne_timerExpired index.val rfl⟩
  | dma =>
      have owns : (Device.write (⟨block.dma, block.memory⟩ : Dma.Attached μ) block.clock width
          offset value).SignalsOnly block.dma.Owns :=
        .bind (block.dma.write_owns block.clock block.memory width offset value) (.trivial _)
          fun _ _ => .pure _
      exact (onDma_ignores index sound owns).imp fun _ _ ignores => ignores.toPassesOver
  | timer other =>
      by_cases own : other = index
      · subst own
        have missed := missed rfl
        refine onTimer_passesOver ?_ ?_
        · refine .bind (.own _) ?_
          rintro ⟨timer, clock⟩ done
          cases (Timer.write_missed missed _ _ value).1.symm.trans done
          exact .pure rfl
        · refine .bind ?_ (.trivial _) fun _ _ => .pure _
          exact (Timer.write_signalsOnly_of_missed missed _ _ value).imp fun _ of => of.isForeign
      · have owns : (Device.write block.timers[other] block.clock width offset value).SignalsOnly
            block.timers[other].Owns :=
          .bind (block.timers[other].write_owns block.clock width offset value) (.trivial _)
            fun _ _ => .pure _
        exact (onTimer_ignores sound own owns).imp fun _ _ ignores => ignores.toPassesOver
  | uart number =>
      have owns : (Device.write block.uarts[number] block.clock width offset value).SignalsOnly
          block.uarts[number].Owns :=
        .bind (block.uarts[number].write_owns block.clock width offset value) (.trivial _)
          fun _ _ => .pure _
      exact (onUart_ignores index sound owns).imp fun _ _ ignores => ignores.toPassesOver

omit [Bus μ] in
/-- The block itself only remarks about addresses that lead nowhere. -/
theorem passesOver_of_remark (index : Fin timerCount) (block : Block μ) (remark : Note)
    (other : remark ≠ .timerExpired index.val) (answer : α) :
    (do
      Run.signal (.note remark)
      return (answer, block) : Run Event (α × Block μ)).Tells fun (_, after) events =>
        PassesOver index block after events := by
  refine .bind (.signal _) ?_
  rintro _ _ rfl
  refine .pure ⟨rfl, fun told => other ?_⟩
  cases List.mem_singleton.1 told
  rfl

theorem read_passesOver (index : Fin timerCount) (sound : Sound settings block) (width : Width)
    (address : UInt32) : (block.read width address).Tells fun (_, after) events =>
      PassesOver index block after events := by
  unfold read
  split
  next => exact passesOver_of_remark index block (.readOutOfRange address) nofun _
  next =>
    split
    next => exact passesOver_of_remark index block (.readUnmapped address) nofun _
    next part offset _ =>
      refine .conclude (readPart_passesOver index sound width offset part) ?_
      rintro ⟨value, after⟩ events passes
      exact ⟨_, rfl, passes⟩

theorem write_passesOver (sound : Sound settings block) {width : Width} {address : UInt32}
    (missed : ∀ offset, route? address = some (.timer index, offset) →
      Selection.find? Timer.registers width offset = none) (value : UInt32) :
    (block.write width address value).Tells fun (_, after) events =>
      PassesOver index block after events := by
  unfold write
  split
  next => exact passesOver_of_remark index block (.writeOutOfRange address) nofun _
  next =>
    split
    next => exact passesOver_of_remark index block (.writeUnmapped address) nofun _
    next part offset routed =>
      have missed (own : part = .timer index) := missed offset (own ▸ routed)
      refine .conclude (writePart_passesOver sound width offset value part missed) ?_
      rintro ⟨_, after⟩ events passes
      exact ⟨_, rfl, passes⟩

omit [Bus μ] in
theorem raiseInterrupt_passesOver (index : Fin timerCount) (block : Block μ) (source : UInt8) :
    PassesOver index block (block.raiseInterrupt source).value
      (block.raiseInterrupt source).signals := by
  have only : (block.raiseInterrupt source).SignalsOnly Event.IsOfController :=
    .bind (.bind (.bind (Interrupt.Controller.drive_signalsOnly _) (.pure _)) (.pure _)) (.pure _)
  exact ⟨rfl, fun told => (only _ told).ne_timerExpired index.val rfl⟩

omit [Bus μ] in
theorem onUartAt_passesOver (index : Fin timerCount) (sound : Sound settings block) (number : Nat)
    {action : Uart → Clock → Run Signal (Unit × Uart × Clock)}
    (owns : ∀ number : Fin uartCount,
      (action block.uarts[number] block.clock).SignalsOnly block.uarts[number].Owns) :
    (block.onUartAt number action).Tells fun (_, after) events =>
      PassesOver index block after events := by
  unfold onUartAt
  split
  next => exact .pure (Ignores.refl index block).toPassesOver
  next number _ =>
    refine .conclude (onUart_ignores index sound (owns number)) ?_
    rintro ⟨_, after⟩ events ignores
    exact ⟨_, rfl, ignores.toPassesOver⟩

/-- The command takes no time, selects no register of the timer for a write and neither resets nor
restores anything. -/
def Command.IsBeside (index : Fin timerCount) : Command → Prop
  | .write width address _ => ∀ offset, route? address = some (.timer index, offset) →
      Selection.find? Timer.registers width offset = none
  | .increment _ | .tick _ | .advance _ | .reset | .restore _ => False
  | _ => True

/-- What others do with a block at one cycle leaves a started timer where it is. -/
theorem perform_beside {command : Command} (beside : command.IsBeside index)
    (sound : Sound settings block) (runs : timer.Runs begun elapsed block.timers[index])
    (now : block.clock.now = begun + UInt64.ofNat elapsed) :
    (block.perform command).Tells fun (_, after) events =>
      timer.Runs begun elapsed after.timers[index] ∧
        .note (.timerExpired index.val) ∉ events := by
  have responds {β : Type} {run : Run Event (β × Block μ)} (response : β → Response)
      (passes : run.Tells fun (_, after) events => PassesOver index block after events) :
      (do
        let (answer, after) ← run
        return (response answer, after)).Tells fun (_, after) events =>
          timer.Runs begun elapsed after.timers[index] ∧
            Event.note (.timerExpired index.val) ∉ events := by
    refine .conclude passes ?_
    rintro ⟨answer, after⟩ events passes
    exact ⟨_, rfl, passes.timer ▸ runs, passes.untold⟩
  cases command with
  | read width address => exact responds _ (read_passesOver index sound width address)
  | write width address value => exact responds _ (write_passesOver sound beside value)
  | poll =>
      have now : block.clock.now = begun + UInt64.ofNat (elapsed + 0) := now
      refine .conclude (poll_services sound runs now fun _ => Nat.zero_le _) ?_
      intro after events serviced
      exact ⟨_, rfl, serviced.runs, serviced.untold⟩
  | reset => exact beside.elim
  | increment cycles => exact beside.elim
  | tick cycles => exact beside.elim
  | advance cycles => exact beside.elim
  | raiseInterrupt source =>
      have passes := raiseInterrupt_passesOver index block source
      refine .conclude (.traced _) ?_
      rintro _ _ ⟨rfl, rfl⟩
      exact ⟨_, rfl, passes.timer ▸ runs, passes.untold⟩
  | receive uart byte =>
      refine responds _ (onUartAt_passesOver index sound uart fun number => ?_)
      exact .bind (.traced (block.uarts[number].receive_owns byte)) (.trivial _) fun _ _ => .pure _
  | setLine uart high =>
      refine responds _ (onUartAt_passesOver index sound uart fun number => ?_)
      exact .bind (.except _) (.trivial _) fun _ _ => .pure _
  | startTransfer channel source target count control =>
      have owns := block.dma.start_owns block.clock block.memory channel source target count control
      have ignores : (block.startTransfer channel source target count control).Tells
          fun (_, after) events => Ignores index block after events :=
        onDma_ignores index sound (.bind owns (.trivial _) fun _ _ => .pure _)
      exact responds _ (ignores.imp fun _ _ ignores => ignores.toPassesOver)
  | placeDeadline cycles =>
      refine .bind (.except _) ?_
      rintro _ _ ⟨-, rfl⟩
      exact .pure ⟨runs, List.not_mem_nil⟩
  | restore saved => exact beside.elim

end Block

end SocPeripherals
