import SocPeripherals.Dma.Engine
import SocPeripherals.Proofs.Lockstep.Clock

/-!
# Direct memory access in lockstep

Channels on clocks in lockstep and on the same memory do the same if they agree in all but the
times of their transfers, and these lie equally far ahead and back.
-/

namespace SocPeripherals

variable {lockstep : Clock.Lockstep} {clock other : Clock}

/-- The transfers agree in all but their times, which lie equally far ahead and back. -/
inductive Transfer.Alike (lockstep : Clock.Lockstep) : Transfer → Transfer → Prop where
  | mk (unit : Width) (sourceStep targetStep total moved : UInt32) (startedAt : UInt64)
      {due dueOther : Option Deadline} (timed : Option.Rel lockstep.deadlines due dueOther) :
      Alike lockstep ⟨unit, sourceStep, targetStep, total, moved, startedAt, due⟩
        ⟨unit, sourceStep, targetStep, total, moved, startedAt + lockstep.shift, dueOther⟩

namespace Transfer

variable {transfer twin : Transfer} {μ : Type} [Bus μ]

theorem moveUnit_alike (alike : Alike lockstep transfer twin) (position : Position) (memory : μ)
    (calls : List BusCall) :
    twin.moveUnit position memory calls = transfer.moveUnit position memory calls := by
  cases alike
  rfl

theorem moveUnits_alike (alike : Alike lockstep transfer twin) (count : Nat) (position : Position)
    (memory : μ) (calls : List BusCall) :
    twin.moveUnits count position memory calls
      = transfer.moveUnits count position memory calls := by
  induction count generalizing position memory calls with
  | zero => rfl
  | succ count ih =>
      rw [moveUnits, moveUnits, moveUnit_alike alike]
      split
      next => rfl
      next => exact ih _ _ _

end Transfer

namespace Dma

namespace Channel

variable {μ : Type} {channel twin : Channel}

/-- The channels agree in all but the times of their transfers. -/
inductive Alike (lockstep : Clock.Lockstep) : Channel → Channel → Prop where
  | mk (index : Nat) (source : UInt8) (cyclesPerUnit : UInt64) (bank : Bank registers)
      {transfer transferOther : Option Transfer}
      (transfers : Option.Rel (Transfer.Alike lockstep) transfer transferOther) :
      Alike lockstep ⟨index, source, cyclesPerUnit, bank, transfer⟩
        ⟨index, source, cyclesPerUnit, bank, transferOther⟩

/-- Channels and their clocks, compared with their twins. -/
abbrev Pair (lockstep : Clock.Lockstep) (first second : Channel × Clock) : Prop :=
  Alike lockstep first.1 second.1 ∧ lockstep.clocks first.2 second.2

/-- Channels, their clocks and their memory, compared with their twins. -/
abbrev Triple (lockstep : Clock.Lockstep) (first second : Channel × Clock × μ) : Prop :=
  Alike lockstep first.1 second.1 ∧ lockstep.clocks first.2.1 second.2.1 ∧
    first.2.2 = second.2.2

theorem Alike.bank_eq (alike : Alike lockstep channel twin) : twin.bank = channel.bank := by
  cases alike; rfl

theorem Alike.index_eq (alike : Alike lockstep channel twin) : twin.index = channel.index := by
  cases alike; rfl

theorem Alike.cyclesPerUnit_eq (alike : Alike lockstep channel twin) :
    twin.cyclesPerUnit = channel.cyclesPerUnit := by
  cases alike; rfl

theorem Alike.isActive_eq (alike : Alike lockstep channel twin) :
    twin.isActive = channel.isActive := by
  obtain ⟨_, _, _, _, transfers⟩ := alike
  cases transfers <;> rfl

theorem Alike.withBank (alike : Alike lockstep channel twin) (bank : Bank registers) :
    Alike lockstep { channel with bank } { twin with bank } := by
  cases alike
  constructor
  assumption

theorem Alike.dueAny (alike : Alike lockstep channel twin) :
    Option.Rel lockstep.deadlines (channel.transfer.bind (·.due)) (twin.transfer.bind (·.due)) := by
  obtain ⟨_, _, _, _, transfers⟩ := alike
  cases transfers with
  | none => exact .none
  | some transfers =>
      cases transfers
      assumption

theorem described_alike (alike : Alike lockstep channel twin) (total : UInt32) (startedAt : UInt64)
    {due dueOther : Option Deadline} (timed : Option.Rel lockstep.deadlines due dueOther) :
    Transfer.Alike lockstep (channel.described total startedAt due)
      (twin.described total (startedAt + lockstep.shift) dueOther) := by
  unfold described
  rw [alike.bank_eq]
  exact .mk _ _ _ total 0 startedAt timed

theorem finish_alike (alike : Alike lockstep channel twin) (clocks : lockstep.clocks clock other)
    (failed : Bool) :
    (channel.finish clock failed).Matches (Pair lockstep) (twin.finish other failed) := by
  have dropped := Clock.Lockstep.dropAny clocks alike.dueAny
  cases alike with
  | mk index source cyclesPerUnit bank transfers =>
      exact .mk _ ⟨.mk index source cyclesPerUnit _ .none, dropped⟩

variable [Bus μ]

theorem advance_alike (alike : Alike lockstep channel twin) (clocks : lockstep.clocks clock other)
    (memory : μ) (target : UInt32) :
    (channel.advance clock memory target).Matches (Triple lockstep)
      (twin.advance other memory target) := by
  obtain ⟨index, source, cyclesPerUnit, bank, transfers⟩ := alike
  cases transfers with
  | none => exact .pure ⟨⟨index, source, cyclesPerUnit, bank, .none⟩, clocks, rfl⟩
  | @some transfer transferOther transfers =>
      have sameTotal : transferOther.total = transfer.total := by cases transfers; rfl
      have sameMoved : transferOther.moved = transfer.moved := by cases transfers; rfl
      unfold advance
      dsimp only
      rw [Transfer.moveUnits_alike transfers]
      unfold Transfer.outstanding position
      rw [sameTotal, sameMoved]
      dsimp only
      generalize transfer.moveUnits _ _ memory [] = progress
      have arrived : Alike lockstep
          (arrive ⟨index, source, cyclesPerUnit, bank, some transfer⟩ transfer progress.position)
          (arrive ⟨index, source, cyclesPerUnit, bank, some transferOther⟩ transferOther
            progress.position) := by
        cases transfers with
        | mk unit sourceStep targetStep total moved startedAt timed =>
            exact .mk index source cyclesPerUnit _
              (.some (.mk unit sourceStep targetStep total _ startedAt timed))
      refine .bind (.refl _) fun _ _ _ => ?_
      split
      next =>
        refine .bind (.refl _) fun _ _ _ => ?_
        refine .bind (finish_alike arrived clocks true) ?_
        rintro ⟨ended, after⟩ ⟨endedOther, later⟩ ⟨alike, clocks⟩
        exact .pure ⟨alike, clocks, rfl⟩
      next =>
        split
        next =>
          refine .bind (finish_alike arrived clocks false) ?_
          rintro ⟨ended, after⟩ ⟨endedOther, later⟩ ⟨alike, clocks⟩
          exact .pure ⟨alike, clocks, rfl⟩
        next => exact .pure ⟨arrived, clocks, rfl⟩

theorem catchUp_alike (alike : Alike lockstep channel twin) (clocks : lockstep.clocks clock other)
    (memory : μ) :
    (channel.catchUp clock memory).Matches (Triple lockstep) (twin.catchUp other memory) := by
  have whole := alike
  obtain ⟨index, source, cyclesPerUnit, bank, transfers⟩ := alike
  cases transfers with
  | none => exact .pure ⟨whole, clocks, rfl⟩
  | @some transfer transferOther transfers =>
      have due : dueUnits ⟨index, source, cyclesPerUnit, bank, some transferOther⟩ other
            transferOther
          = dueUnits ⟨index, source, cyclesPerUnit, bank, some transfer⟩ clock transfer := by
        cases transfers
        unfold dueUnits
        dsimp only
        rw [Clock.Lockstep.elapsed_eq clocks]
      unfold catchUp
      dsimp only
      split
      next => exact .pure ⟨whole, clocks, rfl⟩
      next =>
        rw [due]
        exact advance_alike whole clocks memory _

theorem begin_alike (alike : Alike lockstep channel twin) (clocks : lockstep.clocks clock other)
    (memory : μ) :
    (channel.begin clock memory).Matches (Triple lockstep) (twin.begin other memory) := by
  have whole := alike
  obtain ⟨index, source, cyclesPerUnit, bank, transfers⟩ := alike
  unfold begin
  dsimp only
  refine .bind (.refl _) fun _ _ _ => ?_
  split
  next =>
    refine .bind (Clock.Lockstep.scheduleIn clocks _) ?_
    rintro ⟨due, after⟩ ⟨dueOther, later⟩ ⟨deadlines, clocks⟩
    have described := described_alike whole (bank.get countIndex) after.now (.some deadlines)
    rw [← lockstep.now_eq clocks] at described
    exact .pure ⟨.mk index source cyclesPerUnit bank (.some described), clocks, rfl⟩
  next =>
    have described := described_alike whole (bank.get countIndex) clock.now .none
    rw [← lockstep.now_eq clocks] at described
    exact .ofTraced (advance_alike (.mk index source cyclesPerUnit bank (.some described)) clocks
      memory _)

theorem start_alike (alike : Alike lockstep channel twin) (clocks : lockstep.clocks clock other)
    (memory : μ) (source target count control : UInt32) :
    (channel.start clock memory source target count control).Matches
      (fun (answer, after) (answerOther, afterOther) =>
        answer = answerOther ∧ Triple lockstep after afterOther)
      (twin.start other memory source target count control) := by
  unfold start
  refine .bind (.ofTraced (catchUp_alike alike clocks memory)) ?_
  rintro ⟨caughtUp, after, memory⟩ ⟨caughtUpOther, later, _⟩ ⟨alike, clocks, same⟩
  cases same
  dsimp only at alike clocks ⊢
  rw [alike.isActive_eq]
  split
  next =>
    have refusal : caughtUpOther.busy = caughtUp.busy := by
      unfold busy
      rw [alike.index_eq]
    rw [refusal]
    exact .pure ⟨rfl, alike, clocks, rfl⟩
  next =>
    rw [alike.bank_eq]
    refine .bind (begin_alike (alike.withBank _) clocks memory) ?_
    rintro begun begunOther triple
    exact .pure ⟨rfl, triple⟩

theorem read_alike (alike : Alike lockstep channel twin) (clocks : lockstep.clocks clock other)
    (memory : μ) (width : Width) (address : UInt32) :
    (channel.read clock memory width address).Matches
      (fun (value, after) (valueOther, afterOther) =>
        value = valueOther ∧ Triple lockstep after afterOther)
      (twin.read other memory width address) := by
  unfold read
  refine .bind (catchUp_alike alike clocks memory) ?_
  rintro ⟨caughtUp, after, memory⟩ ⟨caughtUpOther, later, _⟩ ⟨alike, clocks, same⟩
  cases same
  refine .bind (.refl _) ?_
  rintro found _ rfl
  cases found with
  | none => exact .pure ⟨rfl, alike, clocks, rfl⟩
  | some selection =>
      dsimp only at alike clocks ⊢
      rw [alike.bank_eq]
      exact .pure ⟨rfl, alike.withBank _, clocks, rfl⟩

theorem controlled_alike (alike : Alike lockstep channel twin)
    (clocks : lockstep.clocks clock other) (memory : μ) (change : Change) :
    (channel.controlled clock memory change).Matches (Triple lockstep)
      (twin.controlled other memory change) := by
  unfold controlled
  dsimp only
  rw [alike.bank_eq]
  split
  next => exact begin_alike (alike.withBank _) clocks memory
  next => exact .pure ⟨alike.withBank _, clocks, rfl⟩

theorem write_alike (alike : Alike lockstep channel twin) (clocks : lockstep.clocks clock other)
    (memory : μ) (width : Width) (address value : UInt32) :
    (channel.write clock memory width address value).Matches (Triple lockstep)
      (twin.write other memory width address value) := by
  unfold write
  refine .bind (.ofTraced (catchUp_alike alike clocks memory)) ?_
  rintro ⟨caughtUp, after, memory⟩ ⟨caughtUpOther, later, _⟩ ⟨alike, clocks, same⟩
  cases same
  refine .bind (.refl _) ?_
  rintro found _ rfl
  cases found with
  | none => exact .pure ⟨alike, clocks, rfl⟩
  | some selection =>
      dsimp only at alike clocks ⊢
      rw [alike.isActive_eq]
      split
      next =>
        rw [alike.index_eq]
        exact .bind (.refl _) fun _ _ _ => .pure ⟨alike, clocks, rfl⟩
      next =>
        rw [alike.bank_eq]
        split
        next => exact controlled_alike (alike.withBank _) clocks memory _
        next => exact .pure ⟨alike.withBank _, clocks, rfl⟩

theorem poll_alike (alike : Alike lockstep channel twin) (clocks : lockstep.clocks clock other)
    (memory : μ) :
    (channel.poll clock memory).Matches (Triple lockstep) (twin.poll other memory) := by
  have whole := alike
  obtain ⟨index, source, cyclesPerUnit, bank, transfers⟩ := alike
  cases transfers with
  | none => exact .pure ⟨whole, clocks, rfl⟩
  | some transfers =>
      obtain ⟨unit, sourceStep, targetStep, total, moved, startedAt, timed⟩ := transfers
      obtain ⟨sameAnswer, kept⟩ := Clock.Lockstep.claim clocks timed
      unfold poll
      dsimp only
      rw [sameAnswer]
      split
      next =>
        exact catchUp_alike (.mk index source cyclesPerUnit bank
          (.some (.mk unit sourceStep targetStep total moved startedAt kept))) clocks memory
      next => exact .pure ⟨whole, clocks, rfl⟩

omit [Bus μ] in
theorem reset_alike (alike : Alike lockstep channel twin) (clocks : lockstep.clocks clock other) :
    Pair lockstep (channel.reset clock) (twin.reset other) := by
  refine ⟨?_, Clock.Lockstep.dropAny clocks alike.dueAny⟩
  obtain ⟨index, source, cyclesPerUnit, bank, _⟩ := alike
  exact .mk index source cyclesPerUnit bank.reset .none

omit [Bus μ] in
theorem snapshot_alike (alike : Alike lockstep channel twin)
    (clocks : lockstep.clocks clock other) : twin.snapshot other = channel.snapshot clock := by
  obtain ⟨index, source, cyclesPerUnit, bank, transfers⟩ := alike
  cases transfers with
  | none => rfl
  | some transfers =>
      cases transfers
      unfold snapshot
      dsimp only [Option.map_some]
      rw [Clock.Lockstep.elapsed_eq clocks]

omit [Bus μ] in
theorem resume_alike (alike : Alike lockstep channel twin) (clocks : lockstep.clocks clock other)
    (saved : TransferSnapshot) :
    Run.Matches (ε := Signal) (Pair lockstep) (liftM (channel.resume clock saved))
      (liftM (twin.resume other saved)) := by
  obtain ⟨index, source, cyclesPerUnit, bank, _⟩ := alike
  unfold resume
  dsimp only
  rw [Run.liftM_except_bind, Run.liftM_except_bind]
  refine .bind (Clock.Lockstep.scheduleIn clocks _) ?_
  rintro ⟨due, after⟩ ⟨dueOther, later⟩ ⟨deadlines, clocks⟩
  refine .pure ⟨.mk index source cyclesPerUnit bank (.some ?_), clocks⟩
  dsimp only
  rw [Clock.Lockstep.start_eq clocks]
  exact .mk _ _ _ saved.total saved.moved _ (.some deadlines)

omit [Bus μ] in
theorem restore_alike (alike : Alike lockstep channel twin) (clocks : lockstep.clocks clock other)
    (saved : Snapshot) :
    Run.Matches (ε := Signal)
      (fun (answer, after) (answerOther, afterOther) =>
        answer = answerOther ∧ Pair lockstep after afterOther)
      (liftM (channel.restore clock saved)) (liftM (twin.restore other saved)) := by
  unfold restore
  rw [alike.bank_eq, alike.cyclesPerUnit_eq]
  split
  next => exact .pure ⟨rfl, alike, clocks⟩
  next bank _ =>
    split
    next => exact .pure ⟨rfl, alike, clocks⟩
    next =>
      obtain ⟨idle, clocks⟩ := reset_alike alike clocks
      have loaded := idle.withBank bank
      dsimp only
      split
      next => exact .pure ⟨rfl, loaded, clocks⟩
      next transfer _ =>
        rw [Run.liftM_except_bind, Run.liftM_except_bind]
        refine .bind (resume_alike loaded clocks transfer) ?_
        rintro resumed resumedOther pair
        exact .pure ⟨rfl, pair⟩

end Channel

/-! ## The engine -/

variable {μ : Type} {dma twin : Dma}

theorem alike_set {α : Type} {count : Nat} {related : α → α → Prop} {parts twins : Vector α count}
    (alike : ∀ index : Fin count, related parts[index] twins[index]) (index : Fin count)
    {part partner : α} (here : related part partner) (other : Fin count) :
    related (parts.set index part index.isLt)[other]
      (twins.set index partner index.isLt)[other] := by
  by_cases same : index = other
  · subst same
    simpa using here
  · rw [Parts.getElem_set_of_ne _ _ same, Parts.getElem_set_of_ne _ _ same]
    exact alike other

/-- The channels of the engines are alike. -/
def Alike (lockstep : Clock.Lockstep) (dma twin : Dma) : Prop :=
  ∀ index : Fin channelCount, Channel.Alike lockstep dma.channels[index] twin.channels[index]

/-- Engines and their clocks, compared with their twins. -/
abbrev Pair (lockstep : Clock.Lockstep) (first second : Dma × Clock) : Prop :=
  Alike lockstep first.1 second.1 ∧ lockstep.clocks first.2 second.2

/-- Engines, their clocks and their memory, compared with their twins. -/
abbrev Triple (lockstep : Clock.Lockstep) (first second : Dma × Clock × μ) : Prop :=
  Alike lockstep first.1 second.1 ∧ lockstep.clocks first.2.1 second.2.1 ∧
    first.2.2 = second.2.2

theorem Alike.set (alike : Alike lockstep dma twin) (index : Fin channelCount)
    {channel partner : Channel} (here : Channel.Alike lockstep channel partner) :
    Alike lockstep (dma.set index channel) (twin.set index partner) :=
  alike_set alike index here

theorem resetChannel_alike (alike : Alike lockstep dma twin) (clocks : lockstep.clocks clock other)
    (index : Fin channelCount) :
    Pair lockstep (dma.resetChannel clock index) (twin.resetChannel other index) := by
  obtain ⟨channels, clocks⟩ := Channel.reset_alike (alike index) clocks
  exact ⟨alike.set index channels, clocks⟩

theorem reset_alike (alike : Alike lockstep dma twin) (clocks : lockstep.clocks clock other) :
    Pair lockstep (dma.reset clock) (twin.reset other) := by
  obtain ⟨alike, clocks⟩ := resetChannel_alike alike clocks 0
  exact resetChannel_alike alike clocks 1

theorem snapshot_alike (alike : Alike lockstep dma twin) (clocks : lockstep.clocks clock other) :
    twin.snapshot other = dma.snapshot clock :=
  Parts.map_toList_congr fun index => Channel.snapshot_alike (alike index) clocks

theorem restoreChannel_alike (alike : Alike lockstep dma twin)
    (clocks : lockstep.clocks clock other) (index : Fin channelCount) (saved : Snapshot) :
    Run.Matches (ε := Signal)
      (fun (answer, after) (answerOther, afterOther) =>
        answer = answerOther ∧ Pair lockstep after afterOther)
      (liftM (dma.restoreChannel clock index saved))
      (liftM (twin.restoreChannel other index saved)) := by
  unfold restoreChannel
  rw [Run.liftM_except_bind, Run.liftM_except_bind]
  refine .bind (Channel.restore_alike (alike index) clocks saved) ?_
  rintro ⟨answer, channel, after⟩ ⟨_, partner, later⟩ ⟨same, channels, clocks⟩
  cases same
  exact .pure ⟨rfl, alike.set index channels, clocks⟩

theorem restore_alike (alike : Alike lockstep dma twin) (clocks : lockstep.clocks clock other)
    (saved : List Snapshot) :
    Run.Matches (ε := Signal)
      (fun (answer, after) (answerOther, afterOther) =>
        answer = answerOther ∧ Pair lockstep after afterOther)
      (liftM (dma.restore clock saved)) (liftM (twin.restore other saved)) := by
  unfold restore
  split
  next first second =>
    rw [Run.liftM_except_bind, Run.liftM_except_bind]
    refine .bind (restoreChannel_alike alike clocks 0 first) ?_
    rintro ⟨answer, dma, after⟩ ⟨_, twin, later⟩ ⟨same, alike, clocks⟩
    cases same
    cases answer with
    | error error => exact .pure ⟨rfl, alike, clocks⟩
    | ok => exact restoreChannel_alike alike clocks 1 second
  next => exact .pure ⟨rfl, alike, clocks⟩

variable [Bus μ]

theorem start_alike (alike : Alike lockstep dma twin) (clocks : lockstep.clocks clock other)
    (memory : μ) (number : Nat) (source target count control : UInt32) :
    (dma.start clock memory number source target count control).Matches
      (fun (answer, after) (answerOther, afterOther) =>
        answer = answerOther ∧ Triple lockstep after afterOther)
      (twin.start other memory number source target count control) := by
  unfold start
  split
  next => exact .pure ⟨rfl, alike, clocks, rfl⟩
  next index _ =>
    refine .bind (Channel.start_alike (alike index) clocks memory source target count control) ?_
    rintro ⟨answer, channel, after, memory⟩ ⟨_, partner, later, _⟩ ⟨same, channels, clocks, whole⟩
    cases same
    cases whole
    exact .pure ⟨rfl, alike.set index channels, clocks, rfl⟩

theorem read_alike (alike : Alike lockstep dma twin) (clocks : lockstep.clocks clock other)
    (memory : μ) (width : Width) (address : UInt32) :
    (dma.read clock memory width address).Matches
      (fun (value, after) (valueOther, afterOther) =>
        value = valueOther ∧ Triple lockstep after afterOther)
      (twin.read other memory width address) := by
  unfold read
  split
  next => exact .bind (.refl _) fun _ _ _ => .pure ⟨rfl, alike, clocks, rfl⟩
  next index offset _ =>
    refine .bind (Channel.read_alike (alike index) clocks memory width offset) ?_
    rintro ⟨value, channel, after, memory⟩ ⟨_, partner, later, _⟩ ⟨same, channels, clocks, whole⟩
    cases same
    cases whole
    exact .pure ⟨rfl, alike.set index channels, clocks, rfl⟩

theorem write_alike (alike : Alike lockstep dma twin) (clocks : lockstep.clocks clock other)
    (memory : μ) (width : Width) (address value : UInt32) :
    (dma.write clock memory width address value).Matches (Triple lockstep)
      (twin.write other memory width address value) := by
  unfold write
  split
  next => exact .bind (.refl _) fun _ _ _ => .pure ⟨alike, clocks, rfl⟩
  next index offset _ =>
    refine .bind (Channel.write_alike (alike index) clocks memory width offset value) ?_
    rintro ⟨channel, after, memory⟩ ⟨partner, later, _⟩ ⟨channels, clocks, whole⟩
    cases whole
    exact .pure ⟨alike.set index channels, clocks, rfl⟩

theorem pollChannel_alike (alike : Alike lockstep dma twin) (clocks : lockstep.clocks clock other)
    (memory : μ) (index : Fin channelCount) :
    (dma.pollChannel clock memory index).Matches (Triple lockstep)
      (twin.pollChannel other memory index) := by
  refine .bind (Channel.poll_alike (alike index) clocks memory) ?_
  rintro ⟨channel, after, memory⟩ ⟨partner, later, _⟩ ⟨channels, clocks, whole⟩
  cases whole
  exact .pure ⟨alike.set index channels, clocks, rfl⟩

theorem poll_alike (alike : Alike lockstep dma twin) (clocks : lockstep.clocks clock other)
    (memory : μ) :
    (dma.poll clock memory).Matches (Triple lockstep) (twin.poll other memory) := by
  refine .bind (pollChannel_alike alike clocks memory 0) ?_
  rintro ⟨dma, after, memory⟩ ⟨twin, later, _⟩ ⟨alike, clocks, whole⟩
  cases whole
  exact pollChannel_alike alike clocks memory 1

end Dma

end SocPeripherals
