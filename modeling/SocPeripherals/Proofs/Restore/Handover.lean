import SocPeripherals.Proofs.Isolation.Block
import SocPeripherals.Proofs.Restore.Block
import SocPeripherals.Proofs.Restore.Refusal

/-!
# One instance takes over what was saved

Each instance of a block takes over its part by itself, each channel of the engine its own. It
accepts it, and then only the instance has changed, with its deadlines replaced; or it refuses it,
and then nothing has. Which of the two depends on the part and on how the instance was made.
-/

namespace SocPeripherals

namespace Block

variable {μ α : Type} {block between after other : Block μ} {saved : Snapshot} {owner : Owner}

/-! ## The instances one by one -/

/-- The instance is the same in both blocks. -/
def Owner.Agrees (block after : Block μ) : Owner → Prop
  | .misc => after.misc = block.misc
  | .controller => after.controller = block.controller
  | .channel index => after.dma.channels[index] = block.dma.channels[index]
  | .timer index => after.timers[index] = block.timers[index]
  | .uart index => after.uarts[index] = block.uarts[index]

theorem Owner.Agrees.refl (owner : Owner) (block : Block μ) : owner.Agrees block block := by
  cases owner <;> rfl

theorem Owner.Agrees.trans (first : owner.Agrees block between)
    (second : owner.Agrees between after) : owner.Agrees block after := by
  cases owner <;> exact Eq.trans second first

theorem Owner.Agrees.symm (agrees : owner.Agrees block after) : owner.Agrees after block := by
  cases owner <;> exact Eq.symm agrees

theorem Owner.Agrees.held_eq (agrees : owner.Agrees block after) :
    owner.held after = owner.held block := by
  cases owner <;> dsimp only [Agrees] at agrees <;> simp only [held, agrees]

/-- A channel takes over its part of what was saved. -/
def restoreChannel (index : Fin Dma.channelCount) (part : Dma.Snapshot) : Restoration μ :=
  fun block => block.onDma fun attached clock => do
    let (answer, dma, clock) ← attached.dma.restoreChannel clock index part
    return (answer, { attached with dma }, clock)

/-- An instance takes over its part of what was saved, if there is one. -/
def restoreOwner (saved : Snapshot) : Owner → Restoration μ
  | .misc => restorePart saved .misc
  | .controller => restorePart saved .controller
  | .timer index => restorePart saved (.timer index)
  | .uart index => restorePart saved (.uart index)
  | .channel index => fun block =>
      match saved.dma[index.val]? with
      | none => pure (.ok (), block)
      | some part => restoreChannel index part block

/-- The instances in the order in which they take over what was saved. -/
def restoringOwners : List Owner :=
  [.misc, .controller] ++ (List.finRange timerCount).map .timer
    ++ (List.finRange uartCount).map .uart ++ (List.finRange Dma.channelCount).map .channel

theorem nodup_restoringOwners : restoringOwners.Nodup := by decide

theorem mem_restoringOwners (owner : Owner) : owner ∈ restoringOwners := by
  cases owner <;> simp [restoringOwners]

/-- The steps that follow are taken if those before them were not refused. -/
def restoreRest (rest : List (Restoration μ)) :
    Except DeviceError Unit × Block μ → Run Event (Except DeviceError Unit × Block μ)
  | (.error error, block) => pure (.error error, block)
  | (.ok (), block) => restoreAll rest block

theorem restoreAll_cons (step : Restoration μ) (rest : List (Restoration μ)) (block : Block μ) :
    restoreAll (step :: rest) block = step block >>= restoreRest rest := by
  refine bind_congr fun (answer, after) => ?_
  cases answer <;> rfl

theorem restoreAll_append (first rest : List (Restoration μ)) (block : Block μ) :
    restoreAll (first ++ rest) block = restoreAll first block >>= restoreRest rest := by
  induction first generalizing block with
  | nil => exact (pure_bind _ _).symm
  | cons step more ih =>
      rw [List.cons_append, restoreAll_cons, restoreAll_cons, bind_assoc]
      refine bind_congr fun (answer, between) => ?_
      cases answer with
      | error error => exact (pure_bind _ _).symm
      | ok => exact ih between

theorem restoreAll_append_congr (first : List (Restoration μ)) {rest other : List (Restoration μ)}
    (same : restoreAll rest = restoreAll other) (block : Block μ) :
    restoreAll (first ++ rest) block = restoreAll (first ++ other) block := by
  rw [restoreAll_append, restoreAll_append]
  refine bind_congr fun (answer, between) => ?_
  cases answer with
  | error error => rfl
  | ok => exact congrFun same between

theorem restoreAll_singleton (step : Restoration μ) : restoreAll [step] = step := by
  funext block
  refine (restoreAll_cons step [] block).trans ?_
  refine Eq.trans (bind_congr fun (answer, after) => ?_) (bind_pure (step block))
  cases answer <;> rfl

/-! ### Silent steps -/

theorem onTimer_of_silent {index : Fin timerCount}
    {action : Timer → Clock → Run Signal (α × Timer × Clock)}
    (silent : (action block.timers[index] block.clock).IsSilent) :
    block.onTimer index action =
      ⟨(action block.timers[index] block.clock).outcome.map fun (answer, timer, clock) =>
        (answer, { block with clock, timers := block.timers.set index timer index.isLt }), []⟩ := by
  unfold onTimer
  rw [block.controller.relay_of_silent silent]
  cases (action block.timers[index] block.clock).outcome <;> rfl

theorem onUart_of_silent {index : Fin uartCount}
    {action : Uart → Clock → Run Signal (α × Uart × Clock)}
    (silent : (action block.uarts[index] block.clock).IsSilent) :
    block.onUart index action =
      ⟨(action block.uarts[index] block.clock).outcome.map fun (answer, uart, clock) =>
        (answer, { block with clock, uarts := block.uarts.set index uart index.isLt }), []⟩ := by
  unfold onUart
  rw [block.controller.relay_of_silent silent]
  cases (action block.uarts[index] block.clock).outcome <;> rfl

theorem onDma_of_silent
    {action : Dma.Attached μ → Clock → Run Signal (α × Dma.Attached μ × Clock)}
    (silent : (action ⟨block.dma, block.memory⟩ block.clock).IsSilent) :
    block.onDma action =
      ⟨(action ⟨block.dma, block.memory⟩ block.clock).outcome.map fun (answer, attached, clock) =>
        (answer, { block with clock, dma := attached.dma, memory := attached.memory }), []⟩ := by
  unfold onDma
  rw [block.controller.relay_of_silent silent]
  cases (action ⟨block.dma, block.memory⟩ block.clock).outcome <;> rfl

theorem restoreTimer_eq (index : Fin timerCount) (part : Timer.Snapshot) (block : Block μ) :
    restoreTimer index part block =
      ⟨(block.timers[index].restore block.clock part).outcome.map fun (answer, timer, clock) =>
        (answer, { block with clock, timers := block.timers.set index timer index.isLt }), []⟩ :=
  onTimer_of_silent (Timer.restore_silent _ _ part)

theorem restoreUart_eq (index : Fin uartCount) (part : Uart.Snapshot) (block : Block μ) :
    restoreUart index part block =
      ⟨(block.uarts[index].restore block.clock part).map fun (answer, uart, clock) =>
        (answer, { block with clock, uarts := block.uarts.set index uart index.isLt }), []⟩ := by
  have silent : (liftM (block.uarts[index].restore block.clock part) :
      Run Signal (Except DeviceError Unit × Uart × Clock)).IsSilent := .except _
  exact onUart_of_silent silent

theorem restoreChannel_eq (index : Fin Dma.channelCount) (part : Dma.Snapshot) (block : Block μ) :
    restoreChannel index part block =
      ⟨(block.dma.channels[index].restore block.clock part).map fun (answer, channel, clock) =>
        (answer, { block with clock, dma := block.dma.set index channel }), []⟩ := by
  refine (onDma_of_silent (.bind (.except _) fun _ => .pure _)).trans ?_
  unfold Dma.restoreChannel
  cases block.dma.channels[index].restore block.clock part <;> rfl

theorem restoreController_eq (part : Interrupt.Snapshot) (block : Block μ) :
    restoreController part block =
      ⟨.ok ((block.controller.restore part).value.1,
        { block with controller := (block.controller.restore part).value.2 }),
        (block.controller.restore part).signals⟩ := by
  unfold restoreController onController Run.ofTraced
  rw [Traced.signals_bind, Traced.signals_pure, List.append_nil]
  rfl

/-- An engine has its channels take over their parts one after the other. -/
theorem restoreDma_eq (first second : Dma.Snapshot) :
    (restoreDma [first, second] : Restoration μ)
      = restoreAll [restoreChannel 0 first, restoreChannel 1 second] := by
  funext block
  have silent : (Dma.Attached.restore ⟨block.dma, block.memory⟩ block.clock
      [first, second]).IsSilent := by
    rw [Dma.Attached.restore_eq]
    rfl
  unfold restoreDma
  rw [onDma_of_silent silent, Dma.Attached.restore_eq, restoreAll, restoreAll_singleton,
    restoreChannel_eq]
  unfold Dma.restore Dma.restoreChannel
  dsimp only
  cases block.dma.channels[(0 : Fin Dma.channelCount)].restore block.clock first with
  | error reason => rfl
  | ok result =>
      obtain ⟨answer, channel, later⟩ := result
      cases answer with
      | error error => rfl
      | ok =>
          refine Eq.trans ?_ (Run.bind_of_ok rfl _).symm
          rw [restoreChannel_eq]
          dsimp only [bind, Except.bind, pure, Except.pure]
          cases (block.dma.set 0 channel).channels[(1 : Fin Dma.channelCount)].restore later second
            <;> rfl

/-! ### There is something for each instance -/

theorem restoreOwner_timer (μ : Type) (shaped : saved.mismatch? = none) (index : Fin timerCount) :
    ∃ part ∈ saved.timers[index.val]?,
      (restoreOwner saved (.timer index) : Restoration μ) = restoreTimer index part := by
  obtain ⟨-, timers, -⟩ := Snapshot.lengths shaped
  have listed : saved.timers[index.val] ∈ saved.timers[index.val]? := by simp
  exact ⟨_, listed, restorePart_timer listed⟩

theorem restoreOwner_uart (μ : Type) (shaped : saved.mismatch? = none) (index : Fin uartCount) :
    ∃ part ∈ saved.uarts[index.val]?,
      (restoreOwner saved (.uart index) : Restoration μ) = restoreUart index part := by
  obtain ⟨-, -, uarts, -⟩ := Snapshot.lengths shaped
  have listed : saved.uarts[index.val] ∈ saved.uarts[index.val]? := by simp
  exact ⟨_, listed, restorePart_uart listed⟩

theorem restoreOwner_channel (μ : Type) (shaped : saved.mismatch? = none)
    (index : Fin Dma.channelCount) :
    ∃ part ∈ saved.dma[index.val]?,
      (restoreOwner saved (.channel index) : Restoration μ) = restoreChannel index part := by
  obtain ⟨-, -, -, dma⟩ := Snapshot.lengths shaped
  have listed : saved.dma[index.val] ∈ saved.dma[index.val]? := by simp
  refine ⟨_, listed, ?_⟩
  dsimp only [restoreOwner]
  rw [Option.mem_def.1 listed]

/-! ## What one instance makes of its part -/

/-- What stands against the part of an instance, as the instance was made. -/
def Owner.obstacle? (saved : Snapshot) (block : Block μ) : Owner → Option Obstacle
  | .misc => none
  | .controller => saved.controller.obstacle?
  | .timer index => saved.timers[index.val]?.bind Timer.Snapshot.obstacle?
  | .uart index =>
      saved.uarts[index.val]?.bind (Uart.Snapshot.obstacle? block.uarts[index].capacity)
  | .channel index =>
      saved.dma[index.val]?.bind (Dma.Snapshot.obstacle? block.dma.channels[index].cyclesPerUnit)

theorem Owner.Agrees.obstacle_eq (agrees : owner.Agrees block after) (saved : Snapshot) :
    owner.obstacle? saved after = owner.obstacle? saved block := by
  cases owner <;> dsimp only [Agrees] at agrees <;> simp only [obstacle?, agrees]

/-- An instance answers what stands against its part. -/
theorem restoreOwner_answer (shaped : saved.mismatch? = none) (owner : Owner) (block : Block μ) :
    (restoreOwner saved owner block).outcome.map Prod.fst
      = Obstacle.answer (owner.obstacle? saved block) := by
  cases owner with
  | misc => exact (restoreMisc_settles shaped block).answer
  | controller => exact (restoreController_settles saved block).answer
  | timer index =>
      obtain ⟨part, listed, same⟩ := restoreOwner_timer μ shaped index
      rw [same, Owner.obstacle?, Option.mem_def.1 listed]
      exact (restoreTimer_settles listed block).answer
  | uart index =>
      obtain ⟨part, listed, same⟩ := restoreOwner_uart μ shaped index
      rw [same, Owner.obstacle?, Option.mem_def.1 listed]
      exact (onUart_answer block index _).trans (block.uarts[index].restore_cases 0 _ part).1
  | channel index =>
      obtain ⟨part, listed, same⟩ := restoreOwner_channel μ shaped index
      rw [same, Owner.obstacle?, Option.mem_def.1 listed, restoreChannel_eq]
      refine Eq.trans ?_ (block.dma.channels[index].restore_cases 0 block.clock part).1
      cases block.dma.channels[index].restore block.clock part <;> rfl

/-- What an instance comes to depends on the clock and on the instance alone. -/
theorem restoreOwner_congr (shaped : saved.mismatch? = none) {answer : Except DeviceError Unit}
    (agrees : owner.Agrees block other) (clock : other.clock = block.clock)
    (done : (restoreOwner saved owner block).outcome = .ok (answer, after)) :
    ∃ result, (restoreOwner saved owner other).outcome = .ok (answer, result) ∧
      owner.Agrees result after := by
  cases owner with
  | misc =>
      dsimp only [Owner.Agrees] at agrees
      dsimp only [restoreOwner, restorePart, restoreMisc] at done ⊢
      rw [agrees]
      cases loaded : block.misc.load? saved.misc with
      | none =>
          rw [loaded] at done
          cases done
          exact ⟨other, rfl, agrees.symm⟩
      | some misc =>
          rw [loaded] at done
          cases done
          exact ⟨_, rfl, rfl⟩
  | controller =>
      dsimp only [Owner.Agrees] at agrees
      dsimp only [restoreOwner, restorePart] at done ⊢
      rw [restoreController_eq] at done ⊢
      rw [agrees]
      cases done
      exact ⟨_, rfl, rfl⟩
  | timer index =>
      dsimp only [Owner.Agrees] at agrees
      obtain ⟨part, listed, same⟩ := restoreOwner_timer μ shaped index
      rw [same, restoreTimer_eq] at done ⊢
      rw [agrees, clock]
      obtain ⟨result, ran, same⟩ := Run.except_map_eq_ok.1 done
      cases same
      exact ⟨_, Run.except_map_eq_ok.2 ⟨result, ran, rfl⟩, by simp [Owner.Agrees]⟩
  | uart index =>
      dsimp only [Owner.Agrees] at agrees
      obtain ⟨part, listed, same⟩ := restoreOwner_uart μ shaped index
      rw [same, restoreUart_eq] at done ⊢
      rw [agrees, clock]
      obtain ⟨result, ran, same⟩ := Run.except_map_eq_ok.1 done
      cases same
      exact ⟨_, Run.except_map_eq_ok.2 ⟨result, ran, rfl⟩, by simp [Owner.Agrees]⟩
  | channel index =>
      dsimp only [Owner.Agrees] at agrees
      obtain ⟨part, listed, same⟩ := restoreOwner_channel μ shaped index
      rw [same, restoreChannel_eq] at done ⊢
      rw [agrees, clock]
      obtain ⟨result, ran, same⟩ := Run.except_map_eq_ok.1 done
      cases same
      exact ⟨_, Run.except_map_eq_ok.2 ⟨result, ran, rfl⟩, by simp [Owner.Agrees, Dma.set]⟩

/-- What is told of an instance that takes over its part: the controller tells of its line. -/
def Owner.told (saved : Snapshot) (block : Block μ) : Owner → List Event
  | .controller => (block.controller.restore saved.controller).signals
  | .misc | .timer _ | .uart _ | .channel _ => []

theorem Owner.Agrees.told_eq (agrees : owner.Agrees block after) (saved : Snapshot) :
    owner.told saved after = owner.told saved block := by
  cases owner <;> dsimp only [Agrees] at agrees <;> simp only [told, agrees]

/-- An instance takes over its part and the others stay as they are, or it refuses and nothing is
done. -/
inductive Handover (saved : Snapshot) (owner : Owner) (block : Block μ) :
    Except DeviceError Unit × Block μ → List Event → Prop where
  | accepted {after : Block μ} (others : ∀ other : Owner, other ≠ owner → other.Agrees block after)
      (memory : after.memory = block.memory)
      (clock : block.clock.Replaces (owner.held block) (owner.held after) after.clock) :
      Handover saved owner block (.ok (), after) (owner.told saved block)
  | refused (error : DeviceError) : Handover saved owner block (.error error, block) []

theorem Handover.ofTimer {index : Fin timerCount} {answer : Except DeviceError Unit}
    {timer : Timer} {clock : Clock}
    (restores : Restores Timer.held block.timers[index] block.clock (answer, timer, clock)) :
    Handover saved (.timer index) block
      (answer, { block with clock, timers := block.timers.set index timer index.isLt }) [] := by
  cases restores with
  | accepted replaces =>
      refine .accepted (fun other apart => ?_) rfl ?_
      · cases other with
        | timer other =>
            exact Parts.getElem_set_of_ne _ _ fun same => apart (congrArg Owner.timer same.symm)
        | _ => rfl
      · simpa [Owner.held] using replaces
  | refused error =>
      rw [Parts.set_getElem]
      exact .refused error

theorem Handover.ofUart {index : Fin uartCount} {answer : Except DeviceError Unit}
    {uart : Uart} {clock : Clock}
    (restores : Restores Uart.held block.uarts[index] block.clock (answer, uart, clock)) :
    Handover saved (.uart index) block
      (answer, { block with clock, uarts := block.uarts.set index uart index.isLt }) [] := by
  cases restores with
  | accepted replaces =>
      refine .accepted (fun other apart => ?_) rfl ?_
      · cases other with
        | uart other =>
            exact Parts.getElem_set_of_ne _ _ fun same => apart (congrArg Owner.uart same.symm)
        | _ => rfl
      · simpa [Owner.held] using replaces
  | refused error =>
      rw [Parts.set_getElem]
      exact .refused error

theorem Handover.ofChannel {index : Fin Dma.channelCount} {answer : Except DeviceError Unit}
    {channel : Dma.Channel} {clock : Clock}
    (restores : Restores Dma.Channel.held block.dma.channels[index] block.clock
      (answer, channel, clock)) :
    Handover saved (.channel index) block
      (answer, { block with clock, dma := block.dma.set index channel }) [] := by
  cases restores with
  | accepted replaces =>
      refine .accepted (fun other apart => ?_) rfl ?_
      · cases other with
        | channel other =>
            exact Parts.getElem_set_of_ne _ _ fun same => apart (congrArg Owner.channel same.symm)
        | _ => rfl
      · simpa [Owner.held, Dma.set] using replaces
  | refused error =>
      rw [Dma.set_channel]
      exact .refused error

theorem restoreController_handover (saved : Snapshot) (block : Block μ) :
    (restoreController saved.controller block).Tells (Handover saved .controller block) := by
  rw [restoreController_eq]
  rintro ⟨answer, after⟩ done
  cases done
  dsimp only
  cases answered : (block.controller.restore saved.controller).value.1 with
  | error error =>
      rw [Interrupt.Controller.restore_of_error answered]
      exact .refused error
  | ok =>
      refine .accepted (fun other apart => ?_) rfl (.refl block.clock)
      cases other with
      | controller => exact absurd rfl apart
      | _ => rfl

theorem restoreOwner_handover (shaped : saved.mismatch? = none) (owner : Owner) (block : Block μ) :
    (restoreOwner saved owner block).Tells (Handover saved owner block) := by
  cases owner with
  | misc =>
      dsimp only [restoreOwner, restorePart, restoreMisc]
      cases block.misc.load? saved.misc with
      | none => exact .pure (.refused _)
      | some misc =>
          refine .pure (.accepted (fun other apart => ?_) rfl (.refl block.clock))
          cases other with
          | misc => exact absurd rfl apart
          | _ => rfl
  | controller => exact restoreController_handover saved block
  | timer index =>
      obtain ⟨part, listed, same⟩ := restoreOwner_timer μ shaped index
      rw [same, restoreTimer_eq]
      rintro ⟨answer, after⟩ done
      obtain ⟨result, ran, same⟩ := Run.except_map_eq_ok.1 done
      cases same
      exact .ofTimer (block.timers[index].restore_restores block.clock part _ ran)
  | uart index =>
      obtain ⟨part, listed, same⟩ := restoreOwner_uart μ shaped index
      rw [same, restoreUart_eq]
      rintro ⟨answer, after⟩ done
      obtain ⟨result, ran, same⟩ := Run.except_map_eq_ok.1 done
      cases same
      exact .ofUart (Uart.restore_restores ran)
  | channel index =>
      obtain ⟨part, listed, same⟩ := restoreOwner_channel μ shaped index
      rw [same, restoreChannel_eq]
      rintro ⟨answer, after⟩ done
      obtain ⟨result, ran, same⟩ := Run.except_map_eq_ok.1 done
      cases same
      exact .ofChannel (Dma.Channel.restore_restores ran)

/-- An instance with nothing against its part takes it over. -/
theorem restoreOwner_of_none (shaped : saved.mismatch? = none)
    (clear : owner.obstacle? saved block = none) :
    ∃ after, restoreOwner saved owner block = ⟨.ok (.ok (), after), owner.told saved block⟩ ∧
      Handover saved owner block (.ok (), after) (owner.told saved block) := by
  have answer := restoreOwner_answer shaped owner block
  have tells := restoreOwner_handover shaped owner block
  generalize restoreOwner saved owner block = run at answer tells
  obtain ⟨outcome, signals⟩ := run
  rw [clear] at answer
  obtain ⟨⟨answered, after⟩, done, accepted⟩ := Run.except_map_eq_ok.1 answer
  cases done
  cases accepted
  have handover := tells _ rfl
  refine ⟨after, ?_⟩
  cases handover with
  | accepted others memory clock => exact ⟨rfl, .accepted others memory clock⟩

/-- An instance that its part does not fit refuses it, and nothing is done. -/
theorem restoreOwner_of_mismatch (shaped : saved.mismatch? = none) {error : DeviceError}
    (stands : owner.obstacle? saved block = some (.mismatch error)) :
    restoreOwner saved owner block = ⟨.ok (.error error, block), []⟩ := by
  have answer := restoreOwner_answer shaped owner block
  have tells := restoreOwner_handover shaped owner block
  generalize restoreOwner saved owner block = run at answer tells
  obtain ⟨outcome, signals⟩ := run
  rw [stands] at answer
  obtain ⟨⟨answered, after⟩, done, refused⟩ := Run.except_map_eq_ok.1 answer
  cases done
  cases refused
  have handover := tells _ rfl
  cases handover
  rfl

/-! ## Acceptance and refusal -/

/-- The instance takes over its part of what was saved. -/
def Owner.Accepts (saved : Snapshot) (block : Block μ) (owner : Owner) : Prop :=
  (restoreOwner saved owner block).outcome.map Prod.fst = .ok (.ok ())

/-- The instance answers its part of what was saved with an error. -/
def Owner.Refuses (saved : Snapshot) (block : Block μ) (error : DeviceError) (owner : Owner) :
    Prop :=
  (restoreOwner saved owner block).outcome.map Prod.fst = .ok (.error error)

/-- The times in the part of the instance are near enough for deadlines. -/
def Owner.IsNear (saved : Snapshot) (block : Block μ) : Owner → Prop
  | .misc | .controller => True
  | .timer index => ∀ part ∈ saved.timers[index.val]?, part.IsNear
  | .uart index => ∀ part ∈ saved.uarts[index.val]?, part.IsNear
  | .channel index =>
      ∀ part ∈ saved.dma[index.val]?, part.IsNear block.dma.channels[index].cyclesPerUnit

theorem Owner.accepts_iff (shaped : saved.mismatch? = none) :
    owner.Accepts saved block ↔ owner.obstacle? saved block = none := by
  unfold Accepts
  rw [restoreOwner_answer shaped]
  refine ⟨fun same => ?_, fun clear => by rw [clear]; rfl⟩
  exact Obstacle.eq_of_answer (same : _ = Obstacle.answer none)

theorem Owner.refuses_iff (shaped : saved.mismatch? = none) {error : DeviceError} :
    owner.Refuses saved block error ↔ owner.obstacle? saved block = some (.mismatch error) := by
  unfold Refuses
  rw [restoreOwner_answer shaped]
  refine ⟨fun same => ?_, fun stands => by rw [stands]; rfl⟩
  exact Obstacle.eq_of_answer (same : _ = Obstacle.answer (some (.mismatch error)))

theorem Owner.obstacle_befits (saved : Snapshot) (block : Block μ) (owner : Owner) :
    ∀ obstacle ∈ owner.obstacle? saved block, obstacle.Befits (owner.IsNear saved block) := by
  intro obstacle stands
  cases owner with
  | misc => contradiction
  | controller => exact saved.controller.obstacle_befits obstacle stands
  | timer index =>
      obtain ⟨part, listed, stands⟩ := Option.bind_eq_some_iff.1 stands
      exact (part.obstacle_befits obstacle stands).imp fun near => near part listed
  | uart index =>
      obtain ⟨part, listed, stands⟩ := Option.bind_eq_some_iff.1 stands
      exact (part.obstacle_befits _ obstacle stands).imp fun near => near part listed
  | channel index =>
      obtain ⟨part, listed, stands⟩ := Option.bind_eq_some_iff.1 stands
      exact (part.obstacle_befits _ obstacle stands).imp fun near => near part listed

/-- What stands against a part that is refused, or near, is that it does not fit. -/
theorem Owner.refuses_of_obstacle (shaped : saved.mismatch? = none)
    (near : owner.IsNear saved block ∨ ∃ error, owner.Refuses saved block error)
    {obstacle : Obstacle} (stands : owner.obstacle? saved block = some obstacle) :
    ∃ error, owner.Refuses saved block error := by
  rcases near with near | refuses
  · have befits := owner.obstacle_befits saved block obstacle stands
    cases obstacle with
    | mismatch error => exact ⟨error, (refuses_iff shaped).2 stands⟩
    | fault reason => exact absurd near befits.2
  · exact refuses

end Block

end SocPeripherals
