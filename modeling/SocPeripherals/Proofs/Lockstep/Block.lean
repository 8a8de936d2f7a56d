import SocPeripherals.Block.Command
import SocPeripherals.Proofs.Lockstep.Dma
import SocPeripherals.Proofs.Lockstep.Timer
import SocPeripherals.Proofs.Lockstep.Uart
import Mathlib.Data.List.Forall2

/-!
# Blocks in lockstep

Blocks on clocks in lockstep give the same answers and the same events to one command, as long as
it leaves the counters alone, and are alike again after it.
-/

namespace SocPeripherals

namespace Block

variable {μ α : Type} {lockstep : Clock.Lockstep} {idle : Timer.Latch → Timer.Latch → Prop}
  {block twin : Block μ}

/-- The blocks differ in their times, which lie equally far ahead and back, and in what their
stopped timers have latched. -/
structure Alike (lockstep : Clock.Lockstep) (idle : Timer.Latch → Timer.Latch → Prop)
    (block twin : Block μ) : Prop where
  clocks : lockstep.clocks block.clock twin.clock
  memory : twin.memory = block.memory
  misc : twin.misc = block.misc
  controller : twin.controller = block.controller
  timers : ∀ index : Fin timerCount,
    Timer.Alike lockstep idle block.timers[index] twin.timers[index]
  uarts : ∀ index : Fin uartCount, Uart.Alike lockstep block.uarts[index] twin.uarts[index]
  dma : Dma.Alike lockstep block.dma twin.dma

/-- Answers that are the same, with blocks that are alike. -/
abbrev Same (lockstep : Clock.Lockstep) (idle : Timer.Latch → Timer.Latch → Prop)
    (first second : α × Block μ) : Prop :=
  first.1 = second.1 ∧ Alike lockstep idle first.2 second.2

/-! ## Letting a part act -/

theorem relay_matches {β : Type} {related : α → β → Prop} (controller : Interrupt.Controller)
    {run : Run Signal α} {runOther : Run Signal β} (matched : run.Matches related runOther) :
    (controller.relay run).Matches
      (fun (answer, heard) (answerOther, heardOther) =>
        related answer answerOther ∧ heard = heardOther)
      (controller.relay runOther) := by
  cases matched with
  | value signals holds => exact .value _ ⟨holds, rfl⟩
  | fault reason signals => exact .fault reason _

theorem onTimer_alike (alike : Alike lockstep idle block twin) (index : Fin timerCount)
    {action actionOther : Timer → Clock → Run Signal (α × Timer × Clock)}
    (acts : ∀ {timer partner clock other}, Timer.Alike lockstep idle timer partner →
      lockstep.clocks clock other → (action timer clock).Matches
        (fun (answer, after) (answerOther, afterOther) =>
          answer = answerOther ∧ Timer.Pair lockstep idle after afterOther)
        (actionOther partner other)) :
    (block.onTimer index action).Matches (Same lockstep idle) (twin.onTimer index actionOther) := by
  unfold onTimer
  rw [alike.controller]
  refine .bind (relay_matches _ (acts (alike.timers index) alike.clocks)) ?_
  rintro ⟨⟨answer, timer, clock⟩, controller⟩ ⟨⟨_, partner, other⟩, _⟩ ⟨⟨same, timers, clocks⟩, heard⟩
  cases same
  cases heard
  exact .pure ⟨rfl, { alike with
    clocks := clocks
    controller := rfl
    timers := Dma.alike_set alike.timers index timers }⟩

theorem onUart_alike (alike : Alike lockstep idle block twin) (index : Fin uartCount)
    {action : Uart → Clock → Run Signal (α × Uart × Clock)}
    (acts : ∀ {uart partner clock other}, Uart.Alike lockstep uart partner →
      lockstep.clocks clock other → (action uart clock).Matches
        (fun (answer, after) (answerOther, afterOther) =>
          answer = answerOther ∧ Uart.Pair lockstep after afterOther)
        (action partner other)) :
    (block.onUart index action).Matches (Same lockstep idle) (twin.onUart index action) := by
  unfold onUart
  rw [alike.controller]
  refine .bind (relay_matches _ (acts (alike.uarts index) alike.clocks)) ?_
  rintro ⟨⟨answer, uart, clock⟩, controller⟩ ⟨⟨_, partner, other⟩, _⟩ ⟨⟨same, uarts, clocks⟩, heard⟩
  cases same
  cases heard
  exact .pure ⟨rfl, { alike with
    clocks := clocks
    controller := rfl
    uarts := Dma.alike_set alike.uarts index uarts }⟩

theorem onDma_alike (alike : Alike lockstep idle block twin)
    {action : Dma.Attached μ → Clock → Run Signal (α × Dma.Attached μ × Clock)}
    (acts : ∀ {dma partner clock other} (memory : μ), Dma.Alike lockstep dma partner →
      lockstep.clocks clock other → (action ⟨dma, memory⟩ clock).Matches
        (fun (answer, after, later) (answerOther, afterOther, laterOther) =>
          answer = answerOther ∧ Dma.Alike lockstep after.dma afterOther.dma ∧
            lockstep.clocks later laterOther ∧ afterOther.memory = after.memory)
        (action ⟨partner, memory⟩ other)) :
    (block.onDma action).Matches (Same lockstep idle) (twin.onDma action) := by
  unfold onDma
  rw [alike.controller, alike.memory]
  refine .bind (relay_matches _ (acts block.memory alike.dma alike.clocks)) ?_
  rintro ⟨⟨answer, attached, clock⟩, controller⟩ ⟨⟨_, partner, other⟩, _⟩
    ⟨⟨same, channels, clocks, memory⟩, heard⟩
  cases same
  cases heard
  exact .pure ⟨rfl, { alike with
    clocks := clocks
    controller := rfl
    memory := memory
    dma := channels }⟩

theorem onController_alike (alike : Alike lockstep idle block twin)
    (action : Interrupt.Controller → Traced Event (α × Interrupt.Controller)) :
    (block.onController action).Matches (Same lockstep idle) (twin.onController action) := by
  unfold onController
  rw [alike.controller]
  refine .bind (.refl _) ?_
  rintro ⟨answer, controller⟩ _ rfl
  exact .pure ⟨rfl, { alike with controller := rfl }⟩

/-! ## Steps over all parts -/

theorem foldlM_alike {ι : Type} {step : Block μ → ι → Run Event (Block μ)}
    (steps : ∀ {block twin} (part : ι), Alike lockstep idle block twin →
      (step block part).Matches (Alike lockstep idle) (step twin part))
    (parts : List ι) (alike : Alike lockstep idle block twin) :
    (parts.foldlM step block).Matches (Alike lockstep idle) (parts.foldlM step twin) := by
  induction parts generalizing block twin with
  | nil => exact .pure alike
  | cons part rest ih =>
      rw [List.foldlM_cons, List.foldlM_cons]
      exact .bind (steps part alike) fun _ _ alike => ih alike

/-- An answer of nothing is left out. -/
theorem alike_of_same {run runOther : Run Event (Unit × Block μ)}
    (matched : run.Matches (Same lockstep idle) runOther) :
    Run.Matches (Alike lockstep idle)
      (do
        let ((), block) ← run
        return block)
      (do
        let ((), block) ← runOther
        return block) :=
  .bind matched fun _ _ same => .pure same.2

/-- A device without an answer. -/
theorem same_of_pair {β : Type} {related : β → β → Prop} {run runOther : Run Signal β}
    (matched : run.Matches related runOther) :
    Run.Matches (fun (answer, after) (answerOther, afterOther) =>
        answer = answerOther ∧ related after afterOther)
      (do return ((), ← run)) (do return ((), ← runOther)) :=
  .bind matched fun _ _ pair => .pure ⟨rfl, pair⟩

theorem resetTimer_alike (reflexive : ∀ latch, idle latch latch)
    (alike : Alike lockstep idle block twin) (index : Fin timerCount) :
    (block.resetTimer index).Matches (Alike lockstep idle) (twin.resetTimer index) :=
  alike_of_same (onTimer_alike alike index fun timers clocks =>
    .pure ⟨rfl, Timer.reset_alike reflexive timers clocks⟩)

theorem resetUart_alike (alike : Alike lockstep idle block twin) (index : Fin uartCount) :
    (block.resetUart index).Matches (Alike lockstep idle) (twin.resetUart index) :=
  alike_of_same (onUart_alike alike index fun uarts clocks =>
    .pure ⟨rfl, Uart.reset_alike uarts clocks⟩)

theorem misc_alike (alike : Alike lockstep idle block twin) (misc : Bank miscRegisters) :
    Alike lockstep idle { block with misc } { twin with misc } :=
  { alike with misc := rfl }

theorem pollTimer_alike (reflexive : ∀ latch, idle latch latch)
    (alike : Alike lockstep idle block twin) (index : Fin timerCount) :
    (block.pollTimer index).Matches (Alike lockstep idle) (twin.pollTimer index) :=
  alike_of_same (onTimer_alike alike index fun timers clocks =>
    same_of_pair (Timer.poll_alike reflexive timers clocks))

theorem pollUart_alike (alike : Alike lockstep idle block twin) (index : Fin uartCount) :
    (block.pollUart index).Matches (Alike lockstep idle) (twin.pollUart index) :=
  alike_of_same (onUart_alike alike index fun uarts clocks =>
    .bind (.ofTraced (Uart.poll_alike uarts clocks)) fun _ _ uarts => .pure ⟨rfl, uarts, clocks⟩)

variable [Bus μ]

theorem poll_alike (reflexive : ∀ latch, idle latch latch)
    (alike : Alike lockstep idle block twin) :
    block.poll.Matches (Alike lockstep idle) twin.poll := by
  unfold poll
  refine .bind (foldlM_alike (fun part alike => pollTimer_alike reflexive alike part) _ alike) ?_
  intro first firstOther alike
  refine .bind (foldlM_alike (fun part alike => pollUart_alike alike part) _ alike) ?_
  intro second secondOther alike
  refine alike_of_same (onDma_alike alike fun memory channels clocks => ?_)
  refine .bind (.ofTraced (Dma.poll_alike channels clocks memory)) ?_
  rintro ⟨dma, clock, memory⟩ ⟨partner, other, _⟩ ⟨channels, clocks, same⟩
  cases same
  exact .pure ⟨rfl, channels, clocks, rfl⟩

theorem reset_alike (reflexive : ∀ latch, idle latch latch)
    (alike : Alike lockstep idle block twin) :
    block.reset.Matches (Alike lockstep idle) twin.reset := by
  unfold reset
  refine .bind (foldlM_alike (fun part alike => resetTimer_alike reflexive alike part) _ alike) ?_
  intro first firstOther alike
  refine .bind (foldlM_alike (fun part alike => resetUart_alike alike part) _ alike) ?_
  intro second secondOther alike
  refine .bind (onDma_alike alike fun memory channels clocks => ?_) ?_
  · obtain ⟨channels, clocks⟩ := Dma.reset_alike channels clocks
    exact .pure ⟨rfl, channels, clocks, rfl⟩
  · rintro ⟨_, third⟩ ⟨_, thirdOther⟩ ⟨_, alike⟩
    dsimp only at alike ⊢
    rw [alike.misc]
    exact alike_of_same (.ofTraced (onController_alike (misc_alike alike _) _))

/-! ## The bus window -/

omit [Bus μ] in
theorem readMisc_alike (alike : Alike lockstep idle block twin) (width : Width) (offset : UInt32) :
    (block.readMisc width offset).Matches (Same lockstep idle) (twin.readMisc width offset) := by
  unfold readMisc
  refine .bind (.refl _) ?_
  rintro found _ rfl
  cases found with
  | none => exact .pure ⟨rfl, alike⟩
  | some selection =>
      dsimp only
      rw [alike.misc]
      exact .pure ⟨rfl, misc_alike alike _⟩

omit [Bus μ] in
theorem writeMisc_alike (alike : Alike lockstep idle block twin) (width : Width)
    (offset value : UInt32) :
    (block.writeMisc width offset value).Matches (Alike lockstep idle)
      (twin.writeMisc width offset value) := by
  unfold writeMisc
  refine .bind (.refl _) ?_
  rintro found _ rfl
  cases found with
  | none => exact .pure alike
  | some selection =>
      dsimp only
      rw [alike.misc]
      exact .pure (misc_alike alike _)

theorem readPart_alike (alike : Alike lockstep idle block twin) (width : Width) (offset : UInt32)
    (part : Part) :
    (block.readPart width offset part).Matches (Same lockstep idle)
      (twin.readPart width offset part) := by
  unfold readPart
  cases part with
  | misc => exact .ofTraced (readMisc_alike alike width offset)
  | controller => exact .ofTraced (onController_alike alike _)
  | dma =>
      refine onDma_alike alike fun memory channels clocks => ?_
      refine .bind (.ofTraced (Dma.read_alike channels clocks memory width offset)) ?_
      rintro ⟨value, dma, clock, memory⟩ ⟨_, partner, other, _⟩ ⟨answer, channels, clocks, same⟩
      cases same
      exact .pure ⟨answer, channels, clocks, rfl⟩
  | timer index =>
      refine onTimer_alike alike index fun timers clocks => ?_
      refine .bind (.ofTraced (Timer.read_alike timers clocks width offset)) ?_
      rintro ⟨value, timer⟩ ⟨_, partner⟩ ⟨answer, timers⟩
      exact .pure ⟨answer, timers, clocks⟩
  | uart index =>
      refine onUart_alike alike index fun uarts clocks => ?_
      refine .bind (.ofTraced (Uart.read_alike uarts width offset)) ?_
      rintro ⟨value, uart⟩ ⟨_, partner⟩ ⟨answer, uarts⟩
      exact .pure ⟨answer, uarts, clocks⟩

theorem writePart_alike (reflexive : ∀ latch, idle latch latch)
    (alike : Alike lockstep idle block twin) (width : Width) (offset value : UInt32)
    (part : Part) :
    (block.writePart width offset value part).Matches (Same lockstep idle)
      (twin.writePart width offset value part) := by
  unfold writePart
  cases part with
  | misc =>
      refine .bind (.ofTraced (writeMisc_alike alike width offset value)) ?_
      exact fun _ _ alike => .pure ⟨rfl, alike⟩
  | controller => exact .ofTraced (onController_alike alike _)
  | dma =>
      refine onDma_alike alike fun memory channels clocks => ?_
      refine .bind (Dma.write_alike channels clocks memory width offset value) ?_
      rintro ⟨dma, clock, memory⟩ ⟨partner, other, _⟩ ⟨channels, clocks, same⟩
      cases same
      exact .pure ⟨rfl, channels, clocks, rfl⟩
  | timer index =>
      exact onTimer_alike alike index fun timers clocks =>
        same_of_pair (Timer.write_alike reflexive timers clocks width offset value)
  | uart index =>
      exact onUart_alike alike index fun uarts clocks =>
        same_of_pair (Uart.write_alike uarts clocks width offset value)

theorem read_alike (alike : Alike lockstep idle block twin) (width : Width) (address : UInt32) :
    (block.read width address).Matches (Same lockstep idle) (twin.read width address) := by
  unfold read
  split
  next => exact .bind (.refl _) fun _ _ _ => .pure ⟨rfl, alike⟩
  next =>
    split
    next => exact .bind (.refl _) fun _ _ _ => .pure ⟨rfl, alike⟩
    next part offset _ =>
      refine .bind (readPart_alike alike width offset part) ?_
      rintro ⟨value, after⟩ ⟨_, afterOther⟩ ⟨same, alike⟩
      cases same
      exact .pure ⟨rfl, alike⟩

theorem write_alike (reflexive : ∀ latch, idle latch latch)
    (alike : Alike lockstep idle block twin) (width : Width) (address value : UInt32) :
    (block.write width address value).Matches (Same lockstep idle)
      (twin.write width address value) := by
  unfold write
  split
  next => exact .bind (.refl _) fun _ _ _ => .pure ⟨rfl, alike⟩
  next =>
    split
    next => exact .bind (.refl _) fun _ _ _ => .pure ⟨rfl, alike⟩
    next part offset _ =>
      refine .bind (writePart_alike reflexive alike width offset value part) ?_
      rintro ⟨_, after⟩ ⟨_, afterOther⟩ ⟨_, alike⟩
      exact .pure ⟨rfl, alike⟩

/-! ## The host's side -/

omit [Bus μ] in
theorem raiseInterrupt_alike (alike : Alike lockstep idle block twin) (source : UInt8) :
    (block.raiseInterrupt source).Matches (Alike lockstep idle) (twin.raiseInterrupt source) :=
  .bind (onController_alike alike _) fun _ _ same => .pure same.2

omit [Bus μ] in
theorem onUartAt_alike (alike : Alike lockstep idle block twin) (number : Nat)
    {action : Uart → Clock → Run Signal (Unit × Uart × Clock)}
    (acts : ∀ {uart partner clock other}, Uart.Alike lockstep uart partner →
      lockstep.clocks clock other → (action uart clock).Matches
        (fun (answer, after) (answerOther, afterOther) =>
          answer = answerOther ∧ Uart.Pair lockstep after afterOther)
        (action partner other)) :
    (block.onUartAt number action).Matches (Same lockstep idle) (twin.onUartAt number action) := by
  unfold onUartAt
  split
  next => exact .pure ⟨rfl, alike⟩
  next index _ => exact .bind (onUart_alike alike index acts) fun _ _ same => .pure ⟨rfl, same.2⟩

omit [Bus μ] in
theorem receive_alike (alike : Alike lockstep idle block twin) (number : Nat) (byte : UInt8) :
    (block.receive number byte).Matches (Same lockstep idle) (twin.receive number byte) :=
  onUartAt_alike alike number fun uarts clocks =>
    .bind (.ofTraced (Uart.receive_alike uarts byte)) fun _ _ uarts => .pure ⟨rfl, uarts, clocks⟩

omit [Bus μ] in
theorem setLine_alike (alike : Alike lockstep idle block twin) (number : Nat) (high : Bool) :
    (block.setLine number high).Matches (Same lockstep idle) (twin.setLine number high) :=
  onUartAt_alike alike number fun uarts clocks =>
    same_of_pair (Uart.setLine_alike uarts clocks high)

theorem startTransfer_alike (alike : Alike lockstep idle block twin) (channel : Nat)
    (source target count control : UInt32) :
    (block.startTransfer channel source target count control).Matches (Same lockstep idle)
      (twin.startTransfer channel source target count control) := by
  refine onDma_alike alike fun memory channels clocks => ?_
  refine .bind
    (Dma.start_alike channels clocks memory channel source target count control) ?_
  rintro ⟨answer, dma, clock, memory⟩ ⟨_, partner, other, _⟩ ⟨same, channels, clocks, whole⟩
  cases same
  cases whole
  exact .pure ⟨rfl, channels, clocks, rfl⟩

/-! ## Saving and restoring -/

/-- The saved blocks come back alike. -/
structure Snapshot.Alike (saved savedOther : Snapshot) : Prop where
  misc : savedOther.misc = saved.misc
  controller : savedOther.controller = saved.controller
  timers : List.Forall₂ Timer.Snapshot.Alike saved.timers savedOther.timers
  uarts : savedOther.uarts = saved.uarts
  dma : savedOther.dma = saved.dma

theorem Snapshot.Alike.refl (saved : Snapshot) : saved.Alike saved :=
  ⟨rfl, rfl, List.forall₂_same.2 fun part _ => .refl part, rfl, rfl⟩

omit [Bus μ] in
theorem snapshot_alike (alike : Alike lockstep idle block twin) :
    block.snapshot.Alike twin.snapshot where
  misc := by
    unfold snapshot
    rw [alike.misc]
  controller := by
    unfold snapshot
    rw [alike.controller]
  timers := by
    unfold snapshot
    dsimp only
    rw [Parts.map_toList, Parts.map_toList, List.forall₂_map_left_iff, List.forall₂_map_right_iff,
      List.forall₂_same]
    intro index _
    exact Timer.snapshot_alike (alike.timers index) alike.clocks
  uarts := Parts.map_toList_congr fun index =>
    Uart.snapshot_alike (alike.uarts index) alike.clocks
  dma := Dma.snapshot_alike alike.dma alike.clocks

/-- The steps of two restorations do the same to blocks that are alike. -/
def Restoration.Alike (lockstep : Clock.Lockstep) (idle : Timer.Latch → Timer.Latch → Prop)
    (step stepOther : Restoration μ) : Prop :=
  ∀ {block twin}, Block.Alike lockstep idle block twin →
    (step block).Matches (Same lockstep idle) (stepOther twin)

omit [Bus μ] in
theorem restoreAll_alike {steps stepsOther : List (Restoration μ)}
    (matched : List.Forall₂ (Restoration.Alike lockstep idle) steps stepsOther)
    (alike : Alike lockstep idle block twin) :
    (restoreAll steps block).Matches (Same lockstep idle) (restoreAll stepsOther twin) := by
  induction matched generalizing block twin with
  | nil => exact .pure ⟨rfl, alike⟩
  | cons step rest ih =>
      refine .bind (step alike) ?_
      rintro ⟨answer, after⟩ ⟨_, afterOther⟩ ⟨same, alike⟩
      cases same
      cases answer with
      | error error => exact .pure ⟨rfl, alike⟩
      | ok => exact ih alike

theorem forall₂_zip {ι β : Type} {related : β → β → Prop} {left right : List β}
    (matched : List.Forall₂ related left right) (indices : List ι) :
    List.Forall₂ (fun first second => first.1 = second.1 ∧ related first.2 second.2)
      (indices.zip left) (indices.zip right) := by
  induction matched generalizing indices with
  | nil => cases indices <;> exact .nil
  | cons here _ ih =>
      cases indices with
      | nil => exact .nil
      | cons index indices => exact .cons ⟨rfl, here⟩ (ih indices)

omit [Bus μ] in
theorem restoreMisc_alike (saved : List UInt32) :
    Restoration.Alike lockstep idle (restoreMisc (μ := μ) saved) (restoreMisc saved) := by
  intro block twin alike
  unfold restoreMisc
  rw [alike.misc]
  split
  next => exact .pure ⟨rfl, alike⟩
  next misc _ => exact .pure ⟨rfl, misc_alike alike misc⟩

omit [Bus μ] in
theorem restorations_alike (reflexive : ∀ latch, idle latch latch) {saved savedOther : Snapshot}
    (same : saved.Alike savedOther) :
    List.Forall₂ (Restoration.Alike (μ := μ) lockstep idle) (restorations saved)
      (restorations savedOther) := by
  unfold restorations
  rw [same.misc, same.controller, same.uarts, same.dma]
  refine List.rel_append (List.rel_append (List.rel_append ?_ ?_) ?_) ?_
  · refine .cons (restoreMisc_alike saved.misc) (.cons ?_ .nil)
    exact fun alike => .ofTraced (onController_alike alike _)
  · refine List.forall₂_map_left_iff.2 (List.forall₂_map_right_iff.2 ?_)
    refine (forall₂_zip same.timers (List.finRange timerCount)).imp ?_
    rintro ⟨index, part⟩ ⟨_, partOther⟩ ⟨sameIndex, parts⟩ block twin alike
    cases sameIndex
    exact onTimer_alike alike index fun timers clocks =>
      Timer.restore_alike reflexive timers clocks parts
  · refine List.forall₂_map_left_iff.2 (List.forall₂_map_right_iff.2 ?_)
    refine List.forall₂_same.2 fun entry _ block twin alike => ?_
    exact onUart_alike alike entry.1 fun uarts clocks => Uart.restore_alike uarts clocks entry.2
  · refine .cons (fun alike => onDma_alike alike fun memory channels clocks => ?_) .nil
    refine .bind (Dma.restore_alike channels clocks saved.dma) ?_
    rintro ⟨answer, dma, clock⟩ ⟨_, partner, other⟩ ⟨sameAnswer, channels, clocks⟩
    exact .pure ⟨sameAnswer, channels, clocks, rfl⟩

theorem Snapshot.Alike.mismatch?_eq {saved savedOther : Snapshot} (same : saved.Alike savedOther) :
    savedOther.mismatch? = saved.mismatch? := by
  unfold Snapshot.mismatch?
  rw [same.misc, same.uarts, same.dma, same.timers.length_eq]

omit [Bus μ] in
theorem restore_alike (reflexive : ∀ latch, idle latch latch)
    (alike : Alike lockstep idle block twin) {saved savedOther : Snapshot}
    (same : saved.Alike savedOther) :
    (block.restore saved).Matches (Same lockstep idle) (twin.restore savedOther) := by
  unfold restore
  rw [same.mismatch?_eq]
  split
  next => exact .pure ⟨rfl, alike⟩
  next => exact restoreAll_alike (restorations_alike reflexive same) alike

/-! ## Moving the clocks -/

/-- The clocks of the blocks go equally far and reach deadlines at the same time. -/
def MovesAlike (lockstep : Clock.Lockstep) (block twin : Block μ) (cycles : UInt64) : Prop :=
  Run.Matches (ε := Event)
    (fun (reached, clock) (reachedOther, other) =>
      reached = reachedOther ∧ lockstep.clocks clock other)
    (liftM (block.clock.increment cycles)) (liftM (twin.clock.increment cycles))

omit [Bus μ] in
theorem increment_alike (alike : Alike lockstep idle block twin) {cycles : UInt64}
    (moves : MovesAlike lockstep block twin cycles) :
    Run.Matches (ε := Event) (Same lockstep idle) (liftM (block.increment cycles))
      (liftM (twin.increment cycles)) := by
  unfold increment
  rw [Run.liftM_except_bind, Run.liftM_except_bind]
  refine .bind moves ?_
  rintro ⟨reached, clock⟩ ⟨_, other⟩ ⟨same, clocks⟩
  cases same
  exact .pure ⟨rfl, { alike with clocks := clocks }⟩

theorem tick_alike (reflexive : ∀ latch, idle latch latch)
    (alike : Alike lockstep idle block twin) {cycles : UInt64}
    (moves : MovesAlike lockstep block twin cycles) :
    (block.tick cycles).Matches (Same lockstep idle) (twin.tick cycles) := by
  refine .bind (increment_alike alike moves) ?_
  rintro ⟨reached, after⟩ ⟨_, afterOther⟩ ⟨same, alike⟩
  cases same
  dsimp only
  split
  next => exact .bind (poll_alike reflexive alike) fun _ _ alike => .pure ⟨rfl, alike⟩
  next => exact .pure ⟨rfl, alike⟩

end Block

end SocPeripherals
