import SocPeripherals.Proofs.Dma.Turns

/-!
# What a transfer is asked to do

The registers with which a transfer begins say which units it is to copy, one after the other, from
where and to where. `Plan.memoryAfter` carries that out on a memory, unit by unit, and `StopsAt`
says which unit the memory is the first to refuse. However many units a transfer has been asked
for, the registers stand at the last of them that the memory took, and the memory is the one that
carrying out the plan leaves.
-/

namespace SocPeripherals

namespace Transfer

variable {μ : Type} [Bus μ]

theorem moveUnits_one (transfer : Transfer) (position : Position) (memory : μ)
    (calls : List BusCall) :
    transfer.moveUnits 1 position memory calls = transfer.moveUnit position memory calls := by
  rw [moveUnits]
  generalize transfer.moveUnit position memory calls = progress
  obtain ⟨position, memory, refusal, calls⟩ := progress
  cases refusal <;> rfl

/-- Moving one unit more, unless the memory has refused an access. -/
theorem moveUnits_succ (transfer : Transfer) (count : Nat) (position : Position) (memory : μ)
    (calls : List BusCall) :
    transfer.moveUnits (count + 1) position memory calls =
      let progress := transfer.moveUnits count position memory calls
      match progress.refusal with
      | some _ => progress
      | none => transfer.moveUnit progress.position progress.memory progress.calls := by
  rw [transfer.moveUnits_add count 1]
  dsimp only
  rewrite [moveUnits_one]
  rfl

end Transfer

namespace Dma

/-- The units that a transfer is to copy. -/
structure Plan where
  unit : Width
  source : UInt32
  target : UInt32
  /-- How far the source of a unit lies from that of the one before. -/
  sourceStep : UInt32
  /-- How far the target of a unit lies from that of the one before. -/
  targetStep : UInt32
  count : UInt32
deriving DecidableEq

namespace Plan

/-- What the registers of a channel ask for. -/
def ofBank (bank : Bank registers) : Plan where
  unit := unitOf (bank.get controlIndex)
  source := bank.get sourceIndex
  target := bank.get targetIndex
  sourceStep := stepOf (bank.get controlIndex) holdSourceBit
  targetStep := stepOf (bank.get controlIndex) holdTargetBit
  count := bank.get countIndex

/-- The source of a unit, which wraps around the address space. -/
def sourceAt (plan : Plan) (number : Nat) : UInt32 :=
  plan.source + UInt32.ofNat number * plan.sourceStep

/-- The target of a unit, which wraps around the address space. -/
def targetAt (plan : Plan) (number : Nat) : UInt32 :=
  plan.target + UInt32.ofNat number * plan.targetStep

variable {μ : Type} [Bus μ]

/-- Copies one unit: what is read at its source is written at its target. Whether the memory took
both accesses, and what it is afterwards. -/
def copyUnit (plan : Plan) (memory : μ) (number : Nat) : Bool × μ :=
  let (answer, there) := Bus.read memory plan.unit (plan.sourceAt number)
  match answer with
  | .error _ => (false, there)
  | .ok value =>
      let (answer, there) := Bus.write there plan.unit (plan.targetAt number) value
      match answer with
      | .error _ => (false, there)
      | .ok () => (true, there)

/-- The memory after so many units, copied one after the other. -/
def memoryAfter (plan : Plan) (memory : μ) : Nat → μ
  | 0 => memory
  | count + 1 => (plan.copyUnit (plan.memoryAfter memory count) count).2

/-- The memory takes a unit, after those before it. -/
def Takes (plan : Plan) (memory : μ) (number : Nat) : Prop :=
  (plan.copyUnit (plan.memoryAfter memory number) number).1 = true

instance (plan : Plan) (memory : μ) (number : Nat) : Decidable (plan.Takes memory number) :=
  inferInstanceAs (Decidable (_ = _))

/-- The number of the first unit that the memory refuses, the count if it takes them all. -/
structure StopsAt (plan : Plan) (memory : μ) (stop : Nat) : Prop where
  within : stop ≤ plan.count.toNat
  taken : ∀ number < stop, plan.Takes memory number
  refused : stop < plan.count.toNat → ¬ plan.Takes memory stop

variable {plan : Plan} {memory : μ} {stop other : Nat}

theorem StopsAt.le (stops : plan.StopsAt memory stop) (stopsToo : plan.StopsAt memory other) :
    other ≤ stop := by
  by_contra later
  have fewer : stop < other := Nat.lt_of_not_le later
  exact stops.refused (fewer.trans_le stopsToo.within) (stopsToo.taken stop fewer)

/-- A plan stops at one unit only. -/
theorem StopsAt.unique (stops : plan.StopsAt memory stop) (stopsToo : plan.StopsAt memory other) :
    stop = other :=
  Nat.le_antisymm (stopsToo.le stops) (stops.le stopsToo)

/-- Either the memory takes the first units of a plan, or the plan stops at one of them. -/
theorem taken_or_stopsAt (plan : Plan) (memory : μ) {count : Nat}
    (within : count ≤ plan.count.toNat) :
    (∀ number < count, plan.Takes memory number) ∨ ∃ stop < count, plan.StopsAt memory stop := by
  induction count with
  | zero => exact .inl fun _ below => absurd below (Nat.not_lt_zero _)
  | succ count ih =>
      rcases ih (Nat.le_of_succ_le within) with taken | ⟨stop, below, stops⟩
      · by_cases takes : plan.Takes memory count
        · exact .inl (Nat.forall_lt_succ_right.2 ⟨taken, takes⟩)
        · exact .inr ⟨count, count.lt_succ_self, Nat.le_of_succ_le within, taken, fun _ => takes⟩
      · exact .inr ⟨stop, below.trans count.lt_succ_self, stops⟩

theorem exists_stopsAt (plan : Plan) (memory : μ) : ∃ stop, plan.StopsAt memory stop := by
  rcases plan.taken_or_stopsAt memory le_rfl with taken | ⟨stop, _, stops⟩
  · exact ⟨_, le_rfl, taken, fun below => absurd below (lt_irrefl _)⟩
  · exact ⟨stop, stops⟩

/-! ## Carrying a plan out -/

/-- Where a transfer stands before a unit. -/
def position (plan : Plan) (number : Nat) : Transfer.Position where
  source := plan.sourceAt number
  target := plan.targetAt number
  left := plan.count - UInt32.ofNat number
  moved := UInt32.ofNat number

/-- The transfer copies the units of the plan. -/
structure Describes (plan : Plan) (transfer : Transfer) : Prop where
  unit : transfer.unit = plan.unit
  sourceStep : transfer.sourceStep = plan.sourceStep
  targetStep : transfer.targetStep = plan.targetStep

variable {transfer : Transfer}

omit [Bus μ] in
theorem Describes.advance (describes : plan.Describes transfer) (number : Nat) :
    transfer.advance (plan.position number) = plan.position (number + 1) := by
  unfold Transfer.advance position sourceAt targetAt
  rw [describes.sourceStep, describes.targetStep, UInt32.ofNat_add]
  congr 1
  all_goals
    dsimp only
    grind

/-- Moving a unit copies it. -/
theorem Describes.moveUnit (describes : plan.Describes transfer) (memory : μ) (number : Nat)
    (calls : List BusCall) :
    let progress := transfer.moveUnit (plan.position number) memory calls
    let copied := plan.copyUnit memory number
    progress.memory = copied.2 ∧
      (copied.1 = true → progress.refusal = none ∧ progress.position = plan.position (number + 1)) ∧
      (¬ copied.1 = true → progress.refusal ≠ none ∧ progress.position = plan.position number) := by
  have advanced := describes.advance number
  unfold Transfer.moveUnit copyUnit
  rw [describes.unit]
  dsimp only [position] at advanced ⊢
  generalize Bus.read memory plan.unit (plan.sourceAt number) = answered
  cases answered.1 with
  | error refusal => exact ⟨rfl, nofun, fun _ => ⟨Option.some_ne_none _, rfl⟩⟩
  | ok value =>
      dsimp only
      generalize Bus.write answered.2 plan.unit (plan.targetAt number) value = answered
      cases answered.1 with
      | error refusal => exact ⟨rfl, nofun, fun _ => ⟨Option.some_ne_none _, rfl⟩⟩
      | ok => exact ⟨rfl, fun _ => ⟨rfl, advanced⟩, fun refused => absurd rfl refused⟩

/-- As long as the memory takes the units, moving them carries the plan out. -/
theorem Describes.moveUnits (describes : plan.Describes transfer) {count : Nat}
    (taken : ∀ number < count, plan.Takes memory number) :
    let progress := transfer.moveUnits count (plan.position 0) memory []
    progress.refusal = none ∧ progress.position = plan.position count ∧
      progress.memory = plan.memoryAfter memory count := by
  induction count with
  | zero => exact ⟨rfl, rfl, rfl⟩
  | succ count ih =>
      obtain ⟨before, takes⟩ := Nat.forall_lt_succ_right.1 taken
      obtain ⟨going, here, there⟩ := ih before
      dsimp only at *
      rw [transfer.moveUnits_succ]
      dsimp only
      rw [going, here, there]
      obtain ⟨after, took, _⟩ := describes.moveUnit (plan.memoryAfter memory count) count
        (transfer.moveUnits count (plan.position 0) memory []).calls
      exact ⟨(took takes).1, (took takes).2, after⟩

/-- Where the memory refuses a unit the transfer stays. -/
theorem Describes.moveUnits_stops (describes : plan.Describes transfer)
    (stops : plan.StopsAt memory stop) {count : Nat} (within : count ≤ plan.count.toNat)
    (beyond : stop < count) :
    let progress := transfer.moveUnits count (plan.position 0) memory []
    progress.refusal ≠ none ∧ progress.position = plan.position stop ∧
      progress.memory = plan.memoryAfter memory (stop + 1) := by
  obtain ⟨more, rfl⟩ := Nat.exists_eq_add_of_lt beyond
  obtain ⟨going, here, there⟩ := describes.moveUnits stops.taken
  obtain ⟨after, _, stayed⟩ := describes.moveUnit (plan.memoryAfter memory stop) stop
    (transfer.moveUnits stop (plan.position 0) memory []).calls
  obtain ⟨refused, stayed⟩ := stayed (stops.refused (by omega))
  have last : transfer.moveUnits (stop + 1) (plan.position 0) memory []
      = transfer.moveUnit (plan.position stop) (plan.memoryAfter memory stop)
          (transfer.moveUnits stop (plan.position 0) memory []).calls := by
    rw [transfer.moveUnits_succ]
    dsimp only
    rw [going, here, there]
  obtain ⟨reason, because⟩ := Option.ne_none_iff_exists'.1 refused
  have whole : transfer.moveUnits (stop + more + 1) (plan.position 0) memory []
      = transfer.moveUnits (stop + 1) (plan.position 0) memory [] := by
    rw [Nat.add_right_comm, transfer.moveUnits_add, last]
    dsimp only
    rw [because]
  rw [whole, last]
  exact ⟨refused, stayed, after⟩

end Plan

/-- The bits of the control register with which a transfer begins. -/
theorem Launch.bits {bank before : Bank registers} {launch : Launch}
    (begins : launch.bank? before = some bank) :
    bank.get controlIndex &&& startBit ≠ 0 ∧ ¬ bank.get controlIndex &&& errorBit ≠ 0 := by
  cases launch with
  | host source target count control =>
      cases begins
      rw [Channel.control_set]
      exact Channel.bits_of_host control
  | store width address value =>
      obtain ⟨selection, _, begins⟩ := Option.bind_eq_some_iff.1 begins
      dsimp only at begins
      split at begins
      next rises =>
        cases begins
        rw [Bank.clearBits, Channel.control_set, Channel.control_set]
        exact Channel.bits_of_rising rises.2
      next => contradiction

namespace Channel

variable {channel after : Channel} {plan : Plan} {transfer : Transfer} {stop units moved : Nat}

/-- The address registers and the count tell that so many units of a plan have been moved. -/
structure StandsAt (channel : Channel) (plan : Plan) (moved : Nat) : Prop where
  source : channel.bank.get sourceIndex = plan.sourceAt moved
  target : channel.bank.get targetIndex = plan.targetAt moved
  left : (channel.bank.get countIndex).toNat = plan.count.toNat - moved

/-- So many units of a plan have been moved, and the transfer goes on unless they are all. -/
structure HasMoved (channel : Channel) (plan : Plan) (moved : Nat) : Prop where
  stands : channel.StandsAt plan moved
  recorded : ∀ transfer ∈ channel.transfer, transfer.moved.toNat = moved
  active : channel.isActive = true ↔ moved < plan.count.toNat
  start : channel.Shows startBit ↔ moved < plan.count.toNat
  flawless : ¬ channel.Shows errorBit

/-- The transfer has ended at a unit that the memory refused. -/
structure HasFailedAt (channel : Channel) (plan : Plan) (stop : Nat) : Prop where
  stands : channel.StandsAt plan stop
  idle : channel.isActive = false
  start : ¬ channel.Shows startBit
  error : channel.Shows errorBit

theorem describes_described (channel : Channel) (total : UInt32) (startedAt : UInt64)
    (due : Option Deadline) :
    (Plan.ofBank channel.bank).Describes (channel.described total startedAt due) :=
  ⟨rfl, rfl, rfl⟩

theorem position_described (channel : Channel) (total : UInt32) (startedAt : UInt64)
    (due : Option Deadline) :
    channel.position (channel.described total startedAt due)
      = (Plan.ofBank channel.bank).position 0 := by
  unfold Channel.position Plan.position Plan.sourceAt Plan.targetAt
  simp [Plan.ofBank, described]

theorem toNat_ofNat_of_le {count : UInt32} (within : moved ≤ count.toNat) :
    (UInt32.ofNat moved).toNat = moved :=
  UInt32.toNat_ofNat_of_lt' (within.trans_lt count.toNat_lt)

theorem toNat_left (within : moved ≤ plan.count.toNat) :
    (plan.count - UInt32.ofNat moved).toNat = plan.count.toNat - moved := by
  have le : UInt32.ofNat moved ≤ plan.count := by
    rwa [UInt32.le_iff_toNat_le, toNat_ofNat_of_le within]
  rw [UInt32.toNat_sub_of_le _ _ le, toNat_ofNat_of_le within]

theorem arrive_standsAt (channel : Channel) (transfer : Transfer)
    (within : moved ≤ plan.count.toNat) :
    (channel.arrive transfer (plan.position moved)).StandsAt plan moved := by
  have here := channel.position_arrive transfer transfer (plan.position moved)
  exact {
    source := congrArg Transfer.Position.source here
    target := congrArg Transfer.Position.target here
    left := (congrArg (fun position => position.left.toNat) here).trans (toNat_left within) }

variable {μ : Type} {progress : Transfer.Progress μ}

/-- A transfer that ends leaves the address registers where it has come to. -/
theorem get_concluded (channel : Channel) (transfer : Transfer) (progress : Transfer.Progress μ)
    {index : Fin registers.length} (address : index = sourceIndex ∨ index = targetIndex) :
    (channel.concluded transfer progress).bank.get index
      = (channel.arrive transfer progress.position).bank.get index := by
  have apart : controlIndex ≠ index ∧ countIndex ≠ index := by
    rcases address with rfl | rfl <;> decide
  unfold concluded Bank.setBits Bank.clearBits
  dsimp only
  split
  · rw [Bank.get_set_of_ne _ apart.1, Bank.get_set_of_ne _ apart.1]
  · rw [Bank.get_set_of_ne _ apart.2, Bank.get_set_of_ne _ apart.1]

theorem get_count_concluded (channel : Channel) (transfer : Transfer)
    (progress : Transfer.Progress μ) :
    (channel.concluded transfer progress).bank.get countIndex
      = if progress.refusal.isSome then progress.position.left else 0 := by
  unfold concluded Bank.setBits Bank.clearBits
  dsimp only
  split
  · rw [Bank.get_set_of_ne _ (by decide), Bank.get_set_of_ne _ (by decide), get_count_arrive]
  · rw [Registers.set_eq_put, Bank.get_put_self]

theorem concluded_standsAt (channel : Channel) (transfer : Transfer)
    (here : progress.position = plan.position moved) (within : moved ≤ plan.count.toNat)
    (whole : progress.refusal = none → moved = plan.count.toNat) :
    (channel.concluded transfer progress).StandsAt plan moved := by
  have stands := channel.arrive_standsAt transfer within
  rw [← here] at stands
  constructor
  · rw [get_concluded _ _ _ (.inl rfl), stands.source]
  · rw [get_concluded _ _ _ (.inr rfl), stands.target]
  · rw [get_count_concluded]
    split
    next => rw [← stands.left, get_count_arrive]
    next taken =>
      rw [whole (by simpa using taken), Nat.sub_self]
      rfl

variable [Bus μ] {startedAt : UInt64} {due : Option Deadline} {memory there : μ}
  {signals : List Signal}

/-- A transfer that begins carries out what its registers ask for, as long as the memory takes the
units. -/
theorem reach_taken (channel : Channel) (total : UInt32) (startedAt : UInt64)
    (due : Option Deadline)
    (taken : ∀ number < units, (Plan.ofBank channel.bank).Takes memory number) :
    let progress := channel.reach (channel.described total startedAt due) memory units
    progress.refusal = none ∧ progress.position = (Plan.ofBank channel.bank).position units ∧
      progress.memory = (Plan.ofBank channel.bank).memoryAfter memory units := by
  unfold reach
  rw [position_described]
  exact (describes_described channel total startedAt due).moveUnits taken

theorem reach_stops (channel : Channel) (total : UInt32) (startedAt : UInt64)
    (due : Option Deadline) (stops : (Plan.ofBank channel.bank).StopsAt memory stop)
    (within : units ≤ (channel.bank.get countIndex).toNat) (beyond : stop < units) :
    let progress := channel.reach (channel.described total startedAt due) memory units
    progress.refusal ≠ none ∧ progress.position = (Plan.ofBank channel.bank).position stop ∧
      progress.memory = (Plan.ofBank channel.bank).memoryAfter memory (stop + 1) := by
  unfold reach
  rw [position_described]
  exact (describes_described channel total startedAt due).moveUnits_stops stops within beyond

/-- No more units are asked for than there are. -/
theorem Stage.units_le
    (stage : Stage channel (channel.described (channel.bank.get countIndex) startedAt due) memory
      units after there signals) : units ≤ (channel.bank.get countIndex).toNat := by
  rw [← Nat.zero_add units]
  exact stage.within

/-- A transfer that has been asked for no more units than the memory takes. -/
theorem Stage.hasMoved
    (stage : Stage channel (channel.described (channel.bank.get countIndex) startedAt due) memory
      units after there signals)
    (start : channel.Shows startBit) (flawless : ¬ channel.Shows errorBit)
    (taken : ∀ number < units, (Plan.ofBank channel.bank).Takes memory number) :
    there = (Plan.ofBank channel.bank).memoryAfter memory units ∧
      after.HasMoved (Plan.ofBank channel.bank) units := by
  have within := stage.units_le
  obtain ⟨untold, here, contents⟩ :=
    channel.reach_taken (channel.bank.get countIndex) startedAt due taken
  refine ⟨stage.contents.trans contents, ?_⟩
  by_cases ends :
      channel.Ends (channel.described (channel.bank.get countIndex) startedAt due) memory units
  · have all : units = (channel.bank.get countIndex).toNat := by
      rw [← Nat.zero_add units]
      exact ends.resolve_left fun refused => refused untold
    obtain ⟨rfl, _⟩ := stage.finished ends
    have past : ¬ units < (Plan.ofBank channel.bank).count.toNat := all.not_lt
    constructor
    · exact concluded_standsAt channel _ here within fun _ => all
    · exact nofun
    · exact iff_of_false Bool.false_ne_true past
    · exact iff_of_false (not_start_concluded channel _ _) past
    · rw [error_concluded, untold]
      exact not_or.2 ⟨Bool.false_ne_true, flawless⟩
  · obtain ⟨rfl, _⟩ := stage.going ends
    have few : units < (Plan.ofBank channel.bank).count.toNat := by
      refine lt_of_le_of_ne within fun all => ends (.inr ?_)
      exact (Nat.zero_add _).trans all
    constructor
    · rw [here]
      exact arrive_standsAt channel _ within
    · rintro _ ⟨⟩
      rw [here]
      exact toNat_ofNat_of_le within
    · exact iff_of_true rfl few
    · rw [Shows, get_control_arrive]
      exact iff_of_true start few
    · rw [Shows, get_control_arrive]
      exact flawless

/-- A transfer that has been asked for a unit that the memory refuses. -/
theorem Stage.hasFailedAt
    (stage : Stage channel (channel.described (channel.bank.get countIndex) startedAt due) memory
      units after there signals)
    (stops : (Plan.ofBank channel.bank).StopsAt memory stop) (beyond : stop < units) :
    there = (Plan.ofBank channel.bank).memoryAfter memory (stop + 1) ∧
      after.HasFailedAt (Plan.ofBank channel.bank) stop := by
  obtain ⟨refused, here, contents⟩ :=
    channel.reach_stops (channel.bank.get countIndex) startedAt due stops stage.units_le beyond
  refine ⟨stage.contents.trans contents, ?_⟩
  obtain ⟨rfl, _⟩ := stage.finished (.inl refused)
  constructor
  · exact concluded_standsAt channel _ here stops.within fun untold => absurd untold refused
  · rfl
  · exact not_start_concluded channel _ _
  · exact (error_concluded channel _ _).2 (.inl (Option.isSome_iff_ne_none.2 refused))

end Channel

end Dma

end SocPeripherals
