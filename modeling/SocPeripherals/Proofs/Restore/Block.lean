import SocPeripherals.Bus.Ram
import SocPeripherals.Proofs.Block.Restored
import SocPeripherals.Proofs.Faults.Bounds
import SocPeripherals.Proofs.Restore.Devices

/-!
# What comes of restoring a block

The parts of a block take over what was saved in their order, and the first against which something
stands decides what comes of it. Whether something does, and what, can be read off the saved block
and the settings; the state that the block has come to plays no part in it.
-/

namespace SocPeripherals

namespace Block

variable {μ : Type} {settings : Settings} {block after : Block μ} {saved : Snapshot}

/-! ## What stays as it was made -/

/-- The parts of the block are still as the settings had them made. -/
structure Built (settings : Settings) (block : Block μ) : Prop where
  misc : block.misc.Fits
  controller : block.controller.bank.Built
  timers : ∀ index : Fin timerCount, block.timers[index].bank.Built
  uarts : ∀ index : Fin uartCount, block.uarts[index].Built settings.uartCapacity
  channels : ∀ index : Fin Dma.channelCount, block.dma.channels[index].Built settings.dmaCycles

theorem built_initial (settings : Settings) (clock : Clock) (memory : μ) :
    Built settings (initial settings clock memory) := by
  have sound := sound_initial settings clock memory
  constructor
  · exact sound.miscFits
  · exact ⟨sound.controllerResets, sound.controllerFits⟩
  · intro index
    exact ⟨(sound.timers index).resets, (sound.timers index).fits⟩
  · intro index
    have sound := sound.uarts index
    exact ⟨sound.capacity, sound.resets, sound.fits⟩
  · intro index
    have sound := sound.channels index
    exact ⟨sound.cyclesPerUnit, sound.resets, sound.fits⟩

/-- Whatever is done to the block and whatever is restored, it stays as it was made. -/
theorem built_lasting [Bus μ] (settings : Settings) (restorable : Snapshot → Prop) :
    Lasting restorable (Built settings : Block μ → Prop) where
  act := by
    intro block after built act
    cases act with
    | misc resets fits => exact { built with misc := fits built.misc }
    | controller does => exact { built with controller := does.built built.controller }
    | timer index does =>
        have timers (other : Fin timerCount) :=
          evolves_set (fun timer after : Timer => timer.bank.Built → after.bank.Built)
            (fun _ => id) does.built other (built.timers other)
        exact { built with timers }
    | uart index does =>
        have uarts (other : Fin uartCount) :=
          evolves_set (fun uart after : Uart => uart.Built _ → after.Built settings.uartCapacity)
            (fun _ => id) does.built other (built.uarts other)
        exact { built with uarts }
    | channel index does =>
        have channels (other : Fin Dma.channelCount) :=
          evolves_set (fun channel after : Dma.Channel =>
            channel.Built _ → after.Built settings.dmaCycles) (fun _ => id) does.built other
              (built.channels other)
        exact { built with channels }
  moved := by
    intro block after cycles reached built done
    obtain ⟨clock, -, rfl⟩ := of_increment done
    exact { built with }

/-- However a block was reached, it is as it was made. -/
theorem built_performAll [Bus μ] {clock : Clock} {memory : μ} {commands : List Command}
    {responses : List Response}
    (done : ((initial settings clock memory).performAll commands).outcome
      = .ok (responses, block)) : Built settings block :=
  (built_lasting settings fun _ => True).performAll (fun clock built => { built with })
    (fun command _ => by cases command <;> trivial) (built_initial settings clock memory) _ done

/-! ## What stands against a saved block -/

/-- What stands against the saved part, in a block of the settings. -/
def Snapshot.obstacleAt (settings : Settings) (saved : Snapshot) : Part → Option Obstacle
  | .misc => none
  | .controller => saved.controller.obstacle?
  | .timer index => saved.timers[index.val]?.bind Timer.Snapshot.obstacle?
  | .uart index => saved.uarts[index.val]?.bind (Uart.Snapshot.obstacle? settings.uartCapacity)
  | .dma => saved.dma.findSome? (Dma.Snapshot.obstacle? settings.dmaCycles)

/-- What stands against the saved block first, its shape before its parts in their order. -/
def Snapshot.obstacle? (settings : Settings) (saved : Snapshot) : Option Obstacle :=
  match saved.mismatch? with
  | some error => some (.mismatch error)
  | none => restoringOrder.findSome? (saved.obstacleAt settings)

/-- The part holds what was saved of it. -/
def Holds (saved : Snapshot) (block : Block μ) : Part → Prop
  | .misc => block.misc.Stores saved.misc
  | .controller => block.controller.Holds saved.controller
  | .timer index => ∀ part ∈ saved.timers[index.val]?, block.timers[index].Holds part
  | .uart index => ∀ part ∈ saved.uarts[index.val]?, block.uarts[index].Holds part
  | .dma => ∀ index : Fin Dma.channelCount, ∀ part ∈ saved.dma[index.val]?,
      block.dma.channels[index].Holds part

theorem Holds.ofAgrees {part : Part} (agrees : block.Agrees after part)
    (holds : block.Holds saved part) : after.Holds saved part := by
  cases part <;> dsimp only [Agrees] at agrees <;> simpa only [Holds, agrees] using holds

/-- A part takes over what was saved of it, if anything was. -/
def restorePart (saved : Snapshot) : Part → Restoration μ
  | .misc => restoreMisc saved.misc
  | .controller => restoreController saved.controller
  | .timer index => fun block =>
      match saved.timers[index.val]? with
      | none => pure (.ok (), block)
      | some part => restoreTimer index part block
  | .uart index => fun block =>
      match saved.uarts[index.val]? with
      | none => pure (.ok (), block)
      | some part => restoreUart index part block
  | .dma => restoreDma saved.dma

/-- There is something for each of the parts. -/
theorem Snapshot.lengths (shaped : saved.mismatch? = none) :
    saved.misc.length = miscRegisters.length ∧ saved.timers.length = timerCount ∧
      saved.uarts.length = uartCount ∧ saved.dma.length = Dma.channelCount := by
  unfold mismatch? at shaped
  split at shaped
  next => contradiction
  next misc =>
    split at shaped
    next => contradiction
    next timers =>
      split at shaped
      next => contradiction
      next uarts =>
        split at shaped
        next => contradiction
        next dma => exact ⟨not_not.1 misc, not_not.1 timers, not_not.1 uarts, not_not.1 dma⟩

theorem zip_map_eq {α β γ : Type} {count : Nat} {parts : List α} (all : parts.length = count)
    (wrap : Fin count → γ) (step : Fin count × α → β) (stepAt : γ → β)
    (same : ∀ index : Fin count, ∀ part ∈ parts[index.val]?,
      step (index, part) = stepAt (wrap index)) :
    ((List.finRange count).zip parts).map step = ((List.finRange count).map wrap).map stepAt := by
  refine List.ext_getElem (by simp [all]) fun position within _ => ?_
  have bound : position < parts.length := by simpa [all] using within
  simpa using same ⟨position, all ▸ bound⟩ parts[position] (by simp [bound])

theorem restorePart_timer {index : Fin timerCount} {part : Timer.Snapshot}
    (listed : part ∈ saved.timers[index.val]?) :
    (restorePart saved (.timer index) : Restoration μ) = restoreTimer index part := by
  dsimp only [restorePart]
  rw [Option.mem_def.1 listed]

theorem restorePart_uart {index : Fin uartCount} {part : Uart.Snapshot}
    (listed : part ∈ saved.uarts[index.val]?) :
    (restorePart saved (.uart index) : Restoration μ) = restoreUart index part := by
  dsimp only [restorePart]
  rw [Option.mem_def.1 listed]

theorem restorations_eq (shaped : saved.mismatch? = none) :
    (restorations saved : List (Restoration μ)) = restoringOrder.map (restorePart saved) := by
  obtain ⟨-, timers, uarts, -⟩ := Snapshot.lengths shaped
  unfold restorations restoringOrder
  rw [zip_map_eq timers Part.timer _ (restorePart saved) fun _ _ listed =>
      (restorePart_timer listed).symm,
    zip_map_eq uarts Part.uart _ (restorePart saved) fun _ _ listed =>
      (restorePart_uart listed).symm]
  simp only [List.map_append]
  rfl

/-! ## One part -/

/-- What comes of a step is what stands against it, and the part holds what was saved of it unless
something does. The other parts stay as they are. -/
structure Settles (saved : Snapshot) (part : Part) (obstacle : Option Obstacle) (block : Block μ)
    (run : Run Event (Except DeviceError Unit × Block μ)) : Prop where
  answer : run.outcome.map Prod.fst = Obstacle.answer obstacle
  leaves : run.Ensures fun (answer, after) => (answer = .ok () → after.Holds saved part) ∧
    ∀ other, other ≠ part → block.Agrees after other

/-- A part that acts answers what it answers on its own. -/
theorem onTimer_answer {α : Type} (block : Block μ) (index : Fin timerCount)
    (action : Timer → Clock → Run Signal (α × Timer × Clock)) :
    (block.onTimer index action).outcome.map Prod.fst
      = (action block.timers[index] block.clock).outcome.map Prod.fst := by
  unfold onTimer Interrupt.Controller.relay
  cases (action block.timers[index] block.clock).outcome <;> rfl

theorem onUart_answer {α : Type} (block : Block μ) (index : Fin uartCount)
    (action : Uart → Clock → Run Signal (α × Uart × Clock)) :
    (block.onUart index action).outcome.map Prod.fst
      = (action block.uarts[index] block.clock).outcome.map Prod.fst := by
  unfold onUart Interrupt.Controller.relay
  cases (action block.uarts[index] block.clock).outcome <;> rfl

theorem onDma_answer {α : Type} (block : Block μ)
    (action : Dma.Attached μ → Clock → Run Signal (α × Dma.Attached μ × Clock)) :
    (block.onDma action).outcome.map Prod.fst
      = (action ⟨block.dma, block.memory⟩ block.clock).outcome.map Prod.fst := by
  unfold onDma Interrupt.Controller.relay
  cases (action ⟨block.dma, block.memory⟩ block.clock).outcome <;> rfl

theorem restoreMisc_settles (shaped : saved.mismatch? = none) (block : Block μ) :
    Settles saved .misc none block (restoreMisc saved.misc block) := by
  obtain ⟨fitting, -⟩ := Snapshot.lengths shaped
  unfold restoreMisc
  cases loaded : block.misc.load? saved.misc with
  | none => exact absurd fitting (Bank.load?_eq_none_iff.1 loaded)
  | some misc =>
      constructor
      · rfl
      · refine .pure ⟨fun _ => Bank.stores_of_load? loaded, fun other apart => ?_⟩
        cases other with
        | misc => exact absurd rfl apart
        | _ => rfl

theorem restoreController_settles (saved : Snapshot) (block : Block μ) :
    Settles saved .controller saved.controller.obstacle? block
      (restoreController saved.controller block) := by
  constructor
  · exact block.controller.restore_answer saved.controller
  · refine (Run.Ensures.traced _).imp ?_
    rintro _ rfl
    refine ⟨fun accepted => ?_, fun other apart => ?_⟩
    · exact (if_pos accepted).mp (block.controller.restore_leaves saved.controller)
    · cases other with
      | controller => exact absurd rfl apart
      | _ => rfl

theorem restoreTimer_settles {index : Fin timerCount} {part : Timer.Snapshot}
    (listed : part ∈ saved.timers[index.val]?) (block : Block μ) :
    Settles saved (.timer index) part.obstacle? block (restoreTimer index part block) := by
  obtain ⟨answer, leaves⟩ := block.timers[index].restore_cases block.clock part
  constructor
  · exact (onTimer_answer block index _).trans answer
  · refine .bind (block.controller.relay_ensures leaves) ?_
    rintro ⟨⟨answer, timer, clock⟩, _⟩ ⟨held, rfl⟩
    rw [Timer.restore_silent]
    refine .pure ⟨fun accepted => ?_, fun other => agrees_set_timer⟩
    have held : timer.Holds part := (if_pos accepted).mp held
    intro found there
    cases listed.symm.trans there
    simpa using held

theorem restoreUart_settles (built : Built settings block) {index : Fin uartCount}
    {part : Uart.Snapshot} (listed : part ∈ saved.uarts[index.val]?) :
    Settles saved (.uart index) (part.obstacle? settings.uartCapacity) block
      (restoreUart index part block) := by
  obtain ⟨answer, leaves⟩ :=
    block.uarts[index].restore_cases settings.uartCapacity block.clock part
  rw [(built.uarts index).capacity] at answer
  constructor
  · exact (onUart_answer block index _).trans answer
  · refine .bind (block.controller.relay_ensures (.except _)) ?_
    rintro ⟨⟨answer, uart, clock⟩, _⟩ ⟨done, rfl⟩
    refine .pure ⟨fun accepted => ?_, fun other => agrees_set_uart⟩
    have held := (leaves answer uart clock done).1
    rw [if_pos accepted] at held
    intro found there
    cases listed.symm.trans there
    simpa using held

theorem restoreDma_settles (built : Built settings block) (shaped : saved.mismatch? = none) :
    Settles saved .dma (saved.dma.findSome? (Dma.Snapshot.obstacle? settings.dmaCycles)) block
      (restoreDma saved.dma block) := by
  obtain ⟨-, -, -, all⟩ := Snapshot.lengths shaped
  have speed (index : Fin Dma.channelCount) := (built.channels index).cyclesPerUnit
  obtain ⟨answer, leaves⟩ := Dma.restore_cases speed block.clock all
  constructor
  · rw [← answer]
    refine (onDma_answer block _).trans ?_
    unfold Dma.Attached.restore
    cases block.dma.restore block.clock saved.dma <;> rfl
  · have restores : (Dma.Attached.restore ⟨block.dma, block.memory⟩ block.clock saved.dma).Ensures
        fun (answer, attached, later) =>
          block.dma.restore block.clock saved.dma = .ok (answer, attached.dma, later) := by
      refine .bind (.except _) ?_
      rintro ⟨answer, dma, later⟩ done
      exact .pure done
    have silent : (Dma.Attached.restore ⟨block.dma, block.memory⟩ block.clock saved.dma).IsSilent :=
      .bind (.except _) fun _ => .pure _
    refine .bind (block.controller.relay_ensures restores) ?_
    rintro ⟨⟨answer, attached, later⟩, _⟩ ⟨done, rfl⟩
    rw [silent]
    refine .pure ⟨leaves answer attached.dma later done, fun other apart => ?_⟩
    cases other with
    | dma => exact absurd rfl apart
    | _ => rfl

theorem restorePart_settles (built : Built settings block) (shaped : saved.mismatch? = none)
    (part : Part) :
    Settles saved part (saved.obstacleAt settings part) block (restorePart saved part block) := by
  obtain ⟨-, timers, uarts, -⟩ := Snapshot.lengths shaped
  cases part with
  | misc => exact restoreMisc_settles shaped block
  | controller => exact restoreController_settles saved block
  | timer index =>
      have listed : saved.timers[index.val] ∈ saved.timers[index.val]? := by simp
      rw [restorePart_timer listed, Snapshot.obstacleAt, Option.mem_def.1 listed]
      exact restoreTimer_settles listed block
  | uart index =>
      have listed : saved.uarts[index.val] ∈ saved.uarts[index.val]? := by simp
      rw [restorePart_uart listed, Snapshot.obstacleAt, Option.mem_def.1 listed]
      exact restoreUart_settles built listed
  | dma => exact restoreDma_settles built shaped

/-- A part that takes over what was saved leaves the block as it was made. -/
theorem restorePart_built [Bus μ] (built : Built settings block) (shaped : saved.mismatch? = none)
    (part : Part) :
    (restorePart saved part block).Ensures fun (_, after) => Built settings after := by
  have listed : restorePart saved part ∈ (restorations saved : List (Restoration μ)) := by
    rw [restorations_eq shaped]
    exact List.mem_map_of_mem (mem_restoringOrder part)
  refine (restorations_acts (fun _ => True) trivial listed block).imp ?_
  exact fun _ acts => (built_lasting settings _).acts built acts

/-! ## All parts -/

/-- The first part against which something stands decides what comes of it. -/
theorem restoreAll_settles [Bus μ] (built : Built settings block)
    (shaped : saved.mismatch? = none) {parts : List Part} (distinct : parts.Nodup) :
    (restoreAll (parts.map (restorePart saved)) block).outcome.map Prod.fst
        = Obstacle.answer (parts.findSome? (saved.obstacleAt settings)) ∧
      (restoreAll (parts.map (restorePart saved)) block).Ensures fun (answer, after) =>
        (answer = .ok () → ∀ part ∈ parts, after.Holds saved part) ∧
          ∀ part ∉ parts, block.Agrees after part := by
  induction parts generalizing block with
  | nil =>
      refine ⟨rfl, .pure ⟨fun _ _ listed => absurd listed List.not_mem_nil, ?_⟩⟩
      exact fun part _ => .refl block part
  | cons part rest ih =>
      obtain ⟨fresh, distinct⟩ := List.nodup_cons.1 distinct
      obtain ⟨answer, leaves⟩ := restorePart_settles built shaped part
      have keeps := restorePart_built built shaped part
      rw [List.map_cons, restoreAll, List.findSome?_cons]
      cases ran : (restorePart saved part block).outcome with
      | error reason =>
          rw [ran] at answer
          have stands : saved.obstacleAt settings part = some (.fault reason) :=
            Obstacle.eq_of_answer answer.symm
          rw [Run.bind_of_error ran, stands]
          exact ⟨rfl, nofun⟩
      | ok result =>
          obtain ⟨answered, between⟩ := result
          obtain ⟨held, others⟩ := leaves _ ran
          have built : Built settings between := keeps _ ran
          rw [Run.bind_of_ok ran]
          rw [ran] at answer
          cases answered with
          | error error =>
              have stands : saved.obstacleAt settings part = some (.mismatch error) :=
                Obstacle.eq_of_answer answer.symm
              rw [stands]
              refine ⟨rfl, ?_⟩
              rintro _ ⟨⟩
              refine ⟨nofun, fun other missing => others other ?_⟩
              exact fun same => missing (same ▸ List.mem_cons_self)
          | ok =>
              have clear : saved.obstacleAt settings part = none :=
                Obstacle.eq_of_answer answer.symm
              obtain ⟨answerRest, leavesRest⟩ := ih built distinct
              rw [clear]
              refine ⟨answerRest, fun final done => ?_⟩
              obtain ⟨heldRest, othersRest⟩ := leavesRest final done
              constructor
              · rintro accepted other (_ | ⟨_, listed⟩)
                · exact (held rfl).ofAgrees (othersRest part fresh)
                · exact heldRest accepted other listed
              · intro other missing
                have outside := not_or.1 fun either => missing (List.mem_cons.2 either)
                exact (others other outside.1).trans (othersRest other outside.2)

/-- All times in the saved block are near enough for a deadline. -/
structure Snapshot.IsNear (cyclesPerUnit : UInt64) (saved : Snapshot) : Prop where
  timers : ∀ part ∈ saved.timers, part.IsNear
  uarts : ∀ part ∈ saved.uarts, part.IsNear
  dma : ∀ part ∈ saved.dma, part.IsNear cyclesPerUnit

theorem Snapshot.obstacleAt_befits (settings : Settings) (saved : Snapshot) (part : Part) :
    ∀ obstacle ∈ saved.obstacleAt settings part,
      obstacle.Befits (saved.IsNear settings.dmaCycles) := by
  intro obstacle stands
  cases part with
  | misc => contradiction
  | controller => exact saved.controller.obstacle_befits obstacle stands
  | timer index =>
      obtain ⟨part, listed, stands⟩ := Option.bind_eq_some_iff.1 stands
      exact (part.obstacle_befits obstacle stands).imp fun near =>
        near.timers part (List.mem_of_getElem? listed)
  | uart index =>
      obtain ⟨part, listed, stands⟩ := Option.bind_eq_some_iff.1 stands
      exact (part.obstacle_befits _ obstacle stands).imp fun near =>
        near.uarts part (List.mem_of_getElem? listed)
  | dma =>
      obtain ⟨part, listed, stands⟩ := List.exists_of_findSome?_eq_some stands
      exact (part.obstacle_befits _ obstacle stands).imp fun near => near.dma part listed

theorem Snapshot.obstacle_befits (settings : Settings) (saved : Snapshot) :
    ∀ obstacle ∈ saved.obstacle? settings,
      obstacle.Befits (saved.IsNear settings.dmaCycles) := by
  intro obstacle stands
  unfold obstacle? at stands
  split at stands
  next error misshapen =>
    cases stands
    unfold mismatch? at misshapen
    split at misshapen
    next => exact ⟨_, Option.some_inj.1 misshapen.symm⟩
    next =>
      split at misshapen
      next => exact ⟨_, Option.some_inj.1 misshapen.symm⟩
      next =>
        split at misshapen
        next => exact ⟨_, Option.some_inj.1 misshapen.symm⟩
        next =>
          split at misshapen
          next => exact ⟨_, Option.some_inj.1 misshapen.symm⟩
          next => contradiction
  next =>
    obtain ⟨part, -, stands⟩ := List.exists_of_findSome?_eq_some stands
    exact saved.obstacleAt_befits settings part obstacle stands

/-- What comes of restoring a saved block, in a block of the settings. -/
structure Answers (settings : Settings) (saved : Snapshot)
    (run : Run Event (Except DeviceError Unit × Block μ)) : Prop where
  /-- It is what stands against the saved block, whatever state the block is in. -/
  answer : run.outcome.map Prod.fst = Obstacle.answer (saved.obstacle? settings)
  /-- What is refused is refused as a mismatch. -/
  refuses : ∀ error after, run.outcome = .ok (.error error, after) →
    ∃ reason, error = .snapshotMismatch reason
  /-- It fails only for a time that is too long. -/
  fails : ∀ reason, run.outcome = .error reason →
    (reason = .deadlineTooFar ∨ reason = .productOverflow) ∧ ¬ saved.IsNear settings.dmaCycles
  /-- What is accepted is held by every part. -/
  holds : ∀ after, run.outcome = .ok (.ok (), after) → ∀ part, after.Holds saved part

theorem Built.answers [Bus μ] (built : Built settings block) (saved : Snapshot) :
    Answers settings saved (block.restore saved) := by
  have befits := saved.obstacle_befits settings
  have settles : (block.restore saved).outcome.map Prod.fst
        = Obstacle.answer (saved.obstacle? settings) ∧
      (block.restore saved).Ensures fun (answer, after) =>
        answer = .ok () → ∀ part, after.Holds saved part := by
    unfold restore Snapshot.obstacle?
    cases shaped : saved.mismatch? with
    | some error => exact ⟨rfl, .pure nofun⟩
    | none =>
        dsimp only
        rw [restorations_eq shaped]
        obtain ⟨answer, leaves⟩ := restoreAll_settles built shaped nodup_restoringOrder
        refine ⟨answer, leaves.imp ?_⟩
        rintro ⟨answered, after⟩ ⟨held, -⟩ accepted part
        exact held accepted part (mem_restoringOrder part)
  obtain ⟨answer, leaves⟩ := settles
  constructor
  · exact answer
  · intro error after done
    rw [done] at answer
    have stands : saved.obstacle? settings = some (.mismatch error) :=
      Obstacle.eq_of_answer answer.symm
    exact befits _ stands
  · intro reason failed
    rw [failed] at answer
    have stands : saved.obstacle? settings = some (.fault reason) :=
      Obstacle.eq_of_answer answer.symm
    exact befits _ stands
  · intro after done
    exact leaves _ done rfl

/-- Whatever has been done to a block, restoring any saved block comes to what stands against that:
to an acceptance, to a refusal for a mismatch, or to a fault where a time in it is too long. What
the block holds on its clock it can cancel. -/
theorem restore_answers [Bus μ] (settings : Settings) {clock : Clock} (used : clock.Used)
    (memory : μ) {commands : List Command} {responses : List Response}
    (done : ((initial settings clock memory).performAll commands).outcome
      = .ok (responses, block)) (saved : Snapshot) :
    Answers settings saved (block.restore saved) ∧
      ∀ deadline ∈ block.held, block.clock.cancel deadline = .ok (block.clock.drop deadline) := by
  have native := (isNative_initial used.isOwn settings memory).performAll commands _ done
  have built := built_performAll done
  exact ⟨Built.answers built saved, fun deadline known => native.cancel_ok known⟩

/-- A saved block whose first timer would end after half of the counter, and which is otherwise as
at power-on, restored in a block whose first timer runs. -/
theorem restore_answers_far : ∃ block : Block Ram,
    ((initial {} {} Ram.empty).performAll [.write .word 0x1400 1]).outcome.map Prod.snd
        = .ok block ∧
      let fresh := (initial {} {} Ram.empty).snapshot
      let far : Timer.Snapshot :=
        { regs := [1, 0], running := true, reload := 0, stepCycles := 1, elapsed := 0
          remaining := some 0x7fffffffffffffff }
      (block.restore { fresh with timers := fresh.timers.set 0 far }).outcome.map Prod.fst
        = .error .deadlineTooFar := by
  have reached : ∃ responses block, ((initial {} {} Ram.empty).performAll
      [.write .word 0x1400 1]).outcome = .ok (responses, block) := ⟨_, _, rfl⟩
  obtain ⟨responses, block, done⟩ := reached
  refine ⟨block, by rw [done]; rfl, ?_⟩
  dsimp only
  rw [(restore_answers {} (.fresh 0 0) Ram.empty done _).1.answer]
  decide

end Block

end SocPeripherals
