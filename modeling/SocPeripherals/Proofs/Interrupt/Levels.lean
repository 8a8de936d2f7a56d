import Mathlib.Data.List.Chain
import SocPeripherals.Interrupt.Command
import SocPeripherals.Proofs.Late.Heard

/-!
# The history of the interrupt line

The levels that a listener is told of the line are the changes of the line, one for each, and
whoever is told of a level finds the masks and the vector in agreement with it. This is carried
through a run by what one command does: from a controller whose line is driven, the levels that
it tells of lead from the line before it to the line after it.
-/

namespace SocPeripherals

namespace Interrupt

theorem lowestBit?_eq_none_iff {mask : UInt32} : lowestBit? mask = none ↔ mask = 0 := by
  unfold lowestBit?
  rw [List.find?_eq_none]
  constructor
  · intro unset
    refine UInt32.toNat_inj.1 (Nat.eq_of_testBit_eq fun position => ?_)
    rw [UInt32.toNat_zero, Nat.zero_testBit]
    by_cases within : position < 32
    · simpa using unset ⟨position, within⟩ (List.mem_finRange _)
    · exact Nat.testBit_lt_two_pow
        (mask.toNat_lt.trans_le (Nat.pow_le_pow_right (by decide) (Nat.le_of_not_lt within)))
  · rintro rfl position -
    rw [UInt32.toNat_zero, Nat.zero_testBit]
    exact Bool.false_ne_true

theorem lowestBit?_eq_some_iff {mask : UInt32} {source : Fin 32} :
    lowestBit? mask = some source ↔
      mask.toNat.testBit source = true ∧ ∀ lower < source, mask.toNat.testBit lower = false := by
  unfold lowestBit?
  rw [List.find?_eq_some_iff_getElem]
  refine and_congr_right fun _ => ?_
  constructor
  · rintro ⟨place, within, rfl, unset⟩ lower below
    have found := unset lower (by simpa [Fin.lt_def] using below)
    simpa using found
  · intro unset
    refine ⟨source, by simp, by simp, fun lower below => ?_⟩
    simpa using unset ⟨lower, below.trans source.isLt⟩ below

namespace Controller

variable {controller between after : Controller} {level : Bool} {events more : List Event}

theorem vector_eq_zero_iff : controller.vector = 0 ↔ controller.active = 0 := by
  unfold vector
  rw [← lowestBit?_eq_none_iff]
  cases lowest : lowestBit? controller.active with
  | none => simp
  | some source =>
      refine iff_of_false (fun zero => ?_) (Option.some_ne_none source)
      have number := congrArg UInt8.toNat zero
      rw [UInt8.toNat_ofNat_of_lt' (by have := source.isLt; unfold UInt8.size; omega)] at number
      exact absurd number (Nat.succ_ne_zero _)

/-- The vector counts the lowest source that asks for the processor from 1. -/
theorem lowest_of_vector {source : Nat} (shown : controller.vector.toNat = source + 1) :
    controller.active.toNat.testBit source = true ∧
      ∀ lower < source, controller.active.toNat.testBit lower = false := by
  unfold vector at shown
  cases lowest : lowestBit? controller.active with
  | none =>
      rw [lowest] at shown
      exact absurd shown.symm (Nat.succ_ne_zero _)
  | some found =>
      rw [lowest] at shown
      dsimp only at shown
      rw [UInt8.toNat_ofNat_of_lt' (by have := found.isLt; unfold UInt8.size; omega)] at shown
      cases Nat.succ_injective shown
      obtain ⟨set, unset⟩ := lowestBit?_eq_some_iff.1 lowest
      exact ⟨set, fun lower below => unset ⟨lower, below.trans found.isLt⟩ below⟩

/-- The line was at a level, and the levels told of it on the way lead to where it is. -/
structure Leads (level : Bool) (events : List Event) (after : Controller) : Prop where
  driven : after.IsDriven
  /-- Every level that is told differs from the one before it. -/
  alternates : (level :: events.filterMap Event.level?).IsChain (· ≠ ·)
  reached : (events.filterMap Event.level?).getLastD level = after.line
  /-- Who is told of a level finds the controller driven to it. -/
  seen : ∀ high seen, Event.line high seen ∈ events → seen.line = high ∧ seen.IsDriven

/-- Where the line is not told of, it stays. -/
theorem Leads.quiet (driven : after.IsDriven) (stays : level = after.line)
    (silent : ∀ high seen, Event.line high seen ∉ events) : Leads level events after := by
  have untold : events.filterMap Event.level? = [] := by
    rw [List.filterMap_eq_nil_iff]
    intro event member
    cases event with
    | line high seen => exact absurd member (silent high seen)
    | note remark => rfl
    | transmit uart byte => rfl
    | host call => rfl
  refine ⟨driven, ?_, ?_, fun high seen told => absurd told (silent high seen)⟩
  · rw [untold]
    exact .singleton _
  · rw [untold]
    exact stays

theorem Leads.trans (first : Leads level events between) (second : Leads between.line more after) :
    Leads level (events ++ more) after where
  driven := second.driven
  alternates := by
    rw [List.filterMap_append]
    exact isChain_append first.alternates (first.reached ▸ second.alternates)
  reached := by
    have told := first.reached
    have further := second.reached
    rw [← told] at further
    simpa using further
  seen high seen told := by
    rcases List.mem_append.1 told with told | told
    · exact first.seen high seen told
    · exact second.seen high seen told

/-- Whatever is stored into the registers, driving the line tells of its level if that changes. -/
theorem drive_leads (controller : Controller) (bank : Bank registers) :
    Leads controller.line (drive { controller with bank }).signals
      (drive { controller with bank }).value := by
  obtain ⟨masks, line⟩ := controller
  unfold drive
  split
  next driven => exact .quiet driven rfl fun _ _ => List.not_mem_nil
  next apart =>
    refine ⟨rfl, ?_, rfl, ?_⟩
    · exact List.isChain_cons_cons.2 ⟨apart, .singleton _⟩
    · rintro high seen told
      simp only [List.mem_cons, reduceCtorEq, Event.line.injEq, List.not_mem_nil, or_false,
        false_or] at told
      obtain ⟨rfl, rfl⟩ := told
      exact ⟨rfl, rfl⟩

/-- The remarks on an access do not tell of the line. -/
theorem not_line_noted (width : Width) (address : UInt32) (high : Bool) (seen : Controller) :
    Event.line high seen ∉
      (Selection.noted Event.note "intc" registers width address).signals := by
  unfold Selection.noted
  simp

theorem read_leads (driven : controller.IsDriven) (width : Width) (address : UInt32) :
    Leads controller.line (controller.read width address).signals
      (controller.read width address).value.2 := by
  unfold read
  rw [Traced.signals_bind, Traced.value_bind, Selection.value_noted]
  refine .trans (.quiet driven rfl (not_line_noted width address)) ?_
  split
  next => exact .quiet driven rfl fun _ _ => List.not_mem_nil
  next selection _ =>
    split
    next => exact .quiet driven rfl fun _ _ => List.not_mem_nil
    next =>
      dsimp only
      rw [read_eq]
      exact .quiet driven rfl fun _ _ => List.not_mem_nil

theorem write_leads (driven : controller.IsDriven) (width : Width) (address value : UInt32) :
    Leads controller.line (controller.write width address value).signals
      (controller.write width address value).value := by
  unfold write
  rw [Traced.signals_bind, Traced.value_bind, Selection.value_noted]
  refine .trans (.quiet driven rfl (not_line_noted width address)) ?_
  split
  next => exact .quiet driven rfl fun _ _ => List.not_mem_nil
  next selection found =>
    dsimp only
    split
    next vector =>
      have latched := (latched_evolves controller (Selection.proper_of_find? found) vector
        value).driven driven
      split
      next =>
        rw [Traced.signals_bind, Traced.value_bind]
        exact .trans (.quiet latched rfl (by simp)) (drive_leads { controller with bank := _ } _)
      next => exact .quiet latched rfl fun _ _ => List.not_mem_nil
    next => exact drive_leads controller _

theorem restore_leads (driven : controller.IsDriven) (saved : Snapshot) :
    Leads controller.line (controller.restore saved).signals
      (controller.restore saved).value.2 := by
  unfold restore
  split
  next => exact .quiet driven rfl fun _ _ => List.not_mem_nil
  next bank _ =>
    rw [Traced.signals_bind, Traced.signals_pure, List.append_nil]
    exact drive_leads controller bank

/-- Answering tells of nothing further. -/
theorem Leads.answered (leads : Leads level events after) : Leads level (events ++ []) after := by
  rwa [List.append_nil]

/-- What one command does to the line. -/
theorem perform_leads (driven : controller.IsDriven) (command : Command) :
    Leads controller.line (controller.perform command).signals
      (controller.perform command).value.2 := by
  cases command with
  | poll => exact .quiet driven rfl fun _ _ => List.not_mem_nil
  | read width address => exact (read_leads driven width address).answered
  | write width address value => exact (write_leads driven width address value).answered
  | restore saved => exact (restore_leads driven saved).answered
  -- the others change a mask and then drive the line
  | reset => exact (drive_leads controller _).answered
  | post source => exact (drive_leads controller _).answered
  | clear source => exact (drive_leads controller _).answered
  | setEnabled mask => exact (drive_leads controller _).answered

/-- What a run of commands does to the line. -/
theorem performAll_leads (driven : controller.IsDriven) (commands : List Command) :
    Leads controller.line (controller.performAll commands).signals
      (controller.performAll commands).value.2 := by
  induction commands generalizing controller with
  | nil => exact .quiet driven rfl fun _ _ => List.not_mem_nil
  | cons command rest ih =>
      have first := perform_leads driven command
      exact first.trans (ih first.driven).answered

/-- The level of the line and the vector, as the masks give them. -/
structure Shows (controller : Controller) : Prop where
  line : controller.line = (controller.pending &&& controller.enabled != 0)
  /-- The vector is 0 as long as the line is low. -/
  vector_eq_zero : controller.vector = 0 ↔ controller.line = false
  /-- Otherwise it is one more than the lowest bit that is set in both masks. -/
  vector_lowest : ∀ source, controller.vector.toNat = source + 1 →
    (controller.pending &&& controller.enabled).toNat.testBit source = true ∧
      ∀ lower < source, (controller.pending &&& controller.enabled).toNat.testBit lower = false

theorem IsDriven.shows (driven : controller.IsDriven) : controller.Shows where
  line := driven
  vector_eq_zero := by
    rw [vector_eq_zero_iff, driven, demands, bne_eq_false_iff_eq]
  vector_lowest _ shown := lowest_of_vector shown

/-- From power-on, whatever is done to the controller: the line and the vector are what the
masks give, the levels that a listener is told of change at each step from the low level at
power-on to the present one, and at the moment of each of them the listener finds a controller
whose line is at that level, with masks and vector that agree with it. -/
theorem history_of_line (commands : List Command) :
    let ran := Controller.performAll {} commands
    let levels := ran.signals.filterMap Event.level?
    ran.value.2.Shows ∧
      (false :: levels).IsChain (· ≠ ·) ∧
      levels.getLastD false = ran.value.2.line ∧
      ∀ high seen, Event.line high seen ∈ ran.signals →
        seen.line = high ∧ (seen.pending &&& seen.enabled != 0) = high ∧
          (seen.vector != 0) = high ∧ seen.Shows := by
  intro ran levels
  have driven : IsDriven {} := rfl
  have leads : Leads false ran.signals ran.value.2 := performAll_leads driven commands
  refine ⟨leads.driven.shows, leads.alternates, leads.reached, fun high seen told => ?_⟩
  obtain ⟨level, driven⟩ := leads.seen high seen told
  have shows := driven.shows
  refine ⟨level, shows.line.symm.trans level, ?_, shows⟩
  rw [← level, ← Bool.not_inj_iff, bne, Bool.not_not]
  rw [Bool.eq_iff_iff, beq_iff_eq, Bool.not_eq_true', shows.vector_eq_zero]

end Controller

end Interrupt

end SocPeripherals
