import Mathlib.Data.List.FinRange
import SocPeripherals.Proofs.Consistency.Devices
import SocPeripherals.Proofs.Interrupt.Levels
import SocPeripherals.Proofs.Signals

/-!
# The service loop

A processor serves its interrupts by reading the vector from the lowest byte of the vector register
and acknowledging the source that it names there, until the vector is 0. Every turn of the loop
takes the lowest source away from those that ask for the processor, so the sources are served in
ascending order and as many turns are taken as there are sources. The induction is on the sources
that are left; what a turn leaves of the controller is again driven and stores no more than was
written to it.
-/

namespace SocPeripherals

namespace Interrupt

/-! ## The sources of a mask -/

/-- The sources whose bits are set, in ascending order. -/
def sources (mask : UInt32) : List (Fin 32) :=
  (List.finRange 32).filter fun position => mask.toNat.testBit position.val

theorem mem_sources {mask : UInt32} {source : Fin 32} :
    source ∈ sources mask ↔ mask.toNat.testBit source = true := by
  rw [sources, List.mem_filter]
  exact and_iff_right (List.mem_finRange source)

theorem sources_ascending (mask : UInt32) : (sources mask).Pairwise (· < ·) :=
  (List.pairwise_lt_finRange 32).filter _

theorem lowestBit?_eq_head? (mask : UInt32) : lowestBit? mask = (sources mask).head? :=
  (List.head?_filter ..).symm

theorem sources_eq_nil_iff {mask : UInt32} : sources mask = [] ↔ mask = 0 := by
  rw [← List.head?_eq_none_iff, ← lowestBit?_eq_head?, lowestBit?_eq_none_iff]

/-- A mask has as many sources as bits. -/
theorem length_sources (mask : UInt32) : (sources mask).length = mask.toBitVec.cpop.toNat := by
  have counted (n : Nat) : mask.toBitVec.cpopNatRec n 0 =
      (List.range n).countP mask.toBitVec.getLsbD := by
    induction n with
    | zero => rfl
    | succ n ih =>
        rw [BitVec.cpopNatRec_succ, BitVec.cpopNatRec_eq, ih, List.range_succ, List.countP_append,
          List.countP_singleton, Nat.zero_add]
        cases mask.toBitVec.getLsbD n <;> rfl
  rw [BitVec.toNat_cpop, counted, ← List.map_coe_finRange_eq_range, List.countP_map, sources,
    ← List.countP_eq_length_filter]
  rfl

/-- The number of a source among the bytes. -/
theorem toNat_number (source : Fin 32) : (UInt8.ofNat source).toNat = source :=
  UInt8.toNat_ofNat_of_lt' (source.isLt.trans (by decide))

theorem testBit_sourceBit_number (source position : Fin 32) :
    (sourceBit (UInt8.ofNat source)).toNat.testBit position = decide (source = position) := by
  have within : UInt8.ofNat position < sourceCount := by
    rw [UInt8.lt_iff_toNat_lt, toNat_number]
    exact position.isLt
  rw [Bool.eq_iff_iff, decide_eq_true_iff, ← toNat_number position, testBit_sourceBit within,
    ← UInt8.toNat_inj, toNat_number, toNat_number, Fin.val_inj]

/-- The bits of a mask once that of a source is cleared. -/
theorem testBit_and_not_sourceBit (mask : UInt32) (source position : Fin 32) :
    (mask &&& ~~~sourceBit (UInt8.ofNat source)).toNat.testBit position =
      (mask.toNat.testBit position && decide (source ≠ position)) := by
  have bits : (mask &&& ~~~sourceBit (UInt8.ofNat source)).toBitVec.getLsbD position =
      (mask.toBitVec.getLsbD position &&
        !(sourceBit (UInt8.ofNat source)).toBitVec.getLsbD position) := by
    simp
  rw [decide_not, ← testBit_sourceBit_number source position]
  exact bits

/-- The bit of a source of a mask is one of its bits. -/
theorem sourceBit_and {mask : UInt32} {source : Fin 32} (set : source ∈ sources mask) :
    sourceBit (UInt8.ofNat source) &&& mask = sourceBit (UInt8.ofNat source) := by
  rw [mem_sources] at set
  apply eq_of_bits
  intro position below
  have own := testBit_sourceBit_number source ⟨position, below⟩
  change (sourceBit (UInt8.ofNat source)).toBitVec.getLsbD position = _ at own
  rw [UInt32.toBitVec_and, BitVec.getLsbD_and, own]
  by_cases here : source = ⟨position, below⟩
  · subst here
    rw [decide_eq_true rfl, Bool.true_and]
    exact set
  · rw [decide_eq_false here, Bool.false_and]

/-- Clearing the bit of the lowest source leaves the others. -/
theorem sources_and_not {mask : UInt32} {first : Fin 32} {rest : List (Fin 32)}
    (found : sources mask = first :: rest) :
    sources (mask &&& ~~~sourceBit (UInt8.ofNat first)) = rest := by
  have ascending := sources_ascending mask
  have others : sources (mask &&& ~~~sourceBit (UInt8.ofNat first)) =
      (sources mask).filter fun position => first ≠ position := by
    rw [sources, sources, List.filter_filter]
    refine List.filter_congr fun position _ => ?_
    rw [testBit_and_not_sourceBit, Bool.and_comm]
  rw [found, List.pairwise_cons] at ascending
  rw [others, found, List.filter_cons_of_neg (by simp), List.filter_eq_self]
  exact fun position later => by simpa using (ascending.1 position later).ne

namespace Controller

variable {controller : Controller} {first : Fin 32} {rest : List (Fin 32)}

/-! ## Accesses of the vector register -/

/-- The controller with its vector register cut to the bits that keep what was written. -/
def latched (controller : Controller) : Controller :=
  { controller with bank := controller.bank.put vectorIndex (controller.stored &&& latchBits) }

/-- The controller with sources no longer pending. -/
def without (controller : Controller) (bits : UInt32) : Controller :=
  driven { controller with
    bank := controller.bank.put pendingIndex (controller.pending &&& ~~~bits) }

theorem latched_eq_self (consistent : controller.IsConsistent) :
    controller.latched = controller := by
  have kept : controller.stored &&& latchBits = controller.stored := by
    have same : controller.stored &&& ~~~(~~~latchBits) = controller.stored :=
      and_not_of_and_eq_zero consistent
    rwa [UInt32.not_not] at same
  unfold latched
  rw [kept, stored, Bank.put_get]

theorem active_latched (controller : Controller) :
    controller.latched.active = controller.active := by
  unfold latched active pending enabled
  rw [Bank.get_put_of_ne _ (by decide), Bank.get_put_of_ne _ (by decide)]

theorem enabled_without (controller : Controller) (bits : UInt32) :
    (controller.without bits).enabled = controller.enabled :=
  Bank.get_put_of_ne _ (by decide) _

theorem pending_without (controller : Controller) (bits : UInt32) :
    (controller.without bits).pending = controller.pending &&& ~~~bits :=
  Bank.get_put_self _ _ _

theorem active_without (controller : Controller) (bits : UInt32) :
    (controller.without bits).active = controller.active &&& ~~~bits := by
  rw [active, pending_without, enabled_without, active, UInt32.and_assoc, UInt32.and_assoc,
    UInt32.and_comm (~~~bits)]

/-- All bits of the pending register can be cleared. -/
theorem value_clear (controller : Controller) (source : UInt8) :
    (controller.clear source).value = controller.without (sourceBit source) := by
  have cleared : controller.bank.clearBits pendingIndex (sourceBit source) =
      controller.bank.put pendingIndex (controller.pending &&& ~~~sourceBit source) :=
    congrArg (controller.bank.put pendingIndex) UInt32.and_neg_one
  rw [clear, value_drive, cleared]
  rfl

theorem levels_clear (controller : Controller) (source : UInt8) :
    (controller.clear source).signals.filterMap Event.level? =
      rise controller.line (controller.without (sourceBit source)).line := by
  rw [← value_clear, clear, value_drive]
  exact (heard_drive _).1

/-- The line is high as long as some source asks for the processor. -/
theorem IsDriven.line_eq (driven : controller.IsDriven) :
    controller.line = !(sources controller.active).isEmpty := by
  rw [driven, demands, Bool.eq_iff_iff]
  simp [sources_eq_nil_iff]

/-- Storing into the vector register cuts what is stored to the bits that keep what is written. -/
theorem set_vector (bank : Bank registers) (value : UInt32) :
    bank.set vectorIndex value = bank.put vectorIndex value :=
  congrArg (bank.put vectorIndex) UInt32.and_neg_one

/-- The lowest byte of the vector register. -/
def lowestByte : Selection registers := ⟨vectorIndex, ⟨0, 0xff, false⟩⟩

/-- The remark on an access of the lowest byte of the vector register. -/
def remark : Event := .note (.partialAccess "intc" 0 .byte)

theorem noted_lowestByte :
    Selection.noted Event.note "intc" registers .byte 0 = ⟨some lowestByte, [remark]⟩ := by
  have found : Selection.find? registers .byte 0 = some lowestByte := by decide
  unfold Selection.noted
  rw [found]
  rfl

/-- The lowest byte shows the vector alone. -/
theorem read_lowestByte (controller : Controller) :
    controller.read .byte 0 = ⟨(controller.vector.toUInt32, controller), [remark]⟩ := by
  have shown : lowestByte.lane.extract controller.vectorWord = controller.vector.toUInt32 := by
    have stored : controller.bank.get vectorIndex &&& ~~~vectorBits &&& 0xff = 0 := by
      rw [UInt32.and_assoc]
      exact UInt32.and_zero
    have vector : controller.vector.toUInt32 &&& 0xff = controller.vector.toUInt32 := by
      refine UInt32.toNat_inj.1 ?_
      rw [UInt32.toNat_and, UInt8.toNat_toUInt32]
      exact (Nat.and_two_pow_sub_one_eq_mod _ 8).trans (Nat.mod_eq_of_lt controller.vector.toNat_lt)
    have mask : lowestByte.lane.mask = 0xff := rfl
    unfold Lane.extract vectorWord
    rw [mask, or_and_distrib, stored, vector, UInt32.zero_or]
    exact UInt32.shiftRight_zero
  unfold read
  rw [noted_lowestByte]
  exact congrArg (fun value => (⟨(value, controller), [remark]⟩ : Traced Event _)) shown

/-- What is written to the lowest byte lies outside the bits that are kept. -/
theorem latch_lowestByte (bank : Bank registers) (value : UInt32) :
    (bank.write lowestByte value).2.set vectorIndex
        ((bank.write lowestByte value).1.new &&& latchBits)
      = bank.put vectorIndex (bank.get vectorIndex &&& latchBits) := by
  have merged : (bank.write lowestByte value).1.new =
      (bank.get vectorIndex &&& ~~~(0xff : UInt32)) ||| ((value <<< 0) &&& 0xff) := rfl
  have outside (bits : UInt32) : bits &&& 0xff &&& latchBits = 0 := by
    rw [UInt32.and_assoc]
    exact UInt32.and_zero
  have inside (bits : UInt32) : bits &&& ~~~(0xff : UInt32) &&& latchBits = bits &&& latchBits := by
    rw [UInt32.and_assoc]
    rfl
  rw [set_vector, merged, or_and_distrib, inside, outside, UInt32.or_zero]
  exact Bank.put_put _ _ _ _

/-- Writing the number of a source to the lowest byte acknowledges it. -/
theorem write_lowestByte (controller : Controller) (source : Fin 32) :
    controller.write .byte 0 (UInt32.ofNat source) =
      ⟨controller.latched.without (sourceBit (UInt8.ofNat source)),
        remark :: .note (.acknowledged (UInt8.ofNat source)) ::
          (controller.latched.clear (UInt8.ofNat source)).signals⟩ := by
  have named : (lowestByte.lane.place (UInt32.ofNat source) &&& acknowledgeBits).toUInt8 =
      UInt8.ofNat source := by
    revert source
    decide
  have latch := latch_lowestByte controller.bank (UInt32.ofNat source)
  have vector : lowestByte.index = vectorIndex := rfl
  have touches : lowestByte.lane.touches vectorBits = true := by decide
  rw [← value_clear, latched, stored, ← latch, ← named]
  unfold write
  rw [noted_lowestByte]
  change (⟨_, [remark]⟩ : Traced Event _).andThen _ = _
  unfold Traced.andThen
  dsimp only
  rw [if_pos vector, if_pos touches]
  rfl

/-! ## Taking turns -/

/-- The vector counts the first of the sources that ask for the processor from 1. -/
theorem vector_of_cons (waiting : sources controller.active = first :: rest) :
    controller.vector = UInt8.ofNat (first + 1) := by
  unfold vector
  rw [lowestBit?_eq_head?, waiting]
  rfl

/-- A turn of the loop: the vector is read, and what it names is acknowledged. -/
def serveOnce (controller : Controller) : Traced Event (Option UInt32 × Controller) := do
  let (shown, controller) ← controller.read .byte 0
  if shown = 0 then return (none, controller)
  else return (some (shown - 1), ← controller.write .byte 0 (shown - 1))

/-- Nothing is acknowledged while nothing asks for the processor. -/
theorem serveOnce_of_nil (quiet : sources controller.active = []) :
    controller.serveOnce = ⟨(none, controller), [remark]⟩ := by
  have zero : controller.vector = 0 := vector_eq_zero_iff.2 (sources_eq_nil_iff.1 quiet)
  unfold serveOnce
  rw [read_lowestByte, zero]
  rfl

/-- Otherwise the lowest source is acknowledged. -/
theorem serveOnce_of_cons (waiting : sources controller.active = first :: rest) :
    controller.serveOnce =
      ⟨(some (UInt32.ofNat first), controller.latched.without (sourceBit (UInt8.ofNat first))),
        remark :: remark :: .note (.acknowledged (UInt8.ofNat first)) ::
          (controller.latched.clear (UInt8.ofNat first)).signals⟩ := by
  have named : (UInt8.ofNat (first + 1)).toUInt32 ≠ 0 ∧
      (UInt8.ofNat (first + 1)).toUInt32 - 1 = UInt32.ofNat first := by
    clear waiting
    revert first
    decide
  unfold serveOnce
  rw [read_lowestByte, vector_of_cons waiting]
  change (⟨_, [remark]⟩ : Traced Event _).andThen _ = _
  unfold Traced.andThen
  dsimp only
  rw [if_neg named.1, named.2, write_lowestByte, Traced.value_bind, Traced.signals_bind,
    Traced.signals_pure, List.append_nil]
  rfl

/-- What is left to be served after a turn. -/
theorem sources_of_cons (waiting : sources controller.active = first :: rest) :
    sources (controller.latched.without (sourceBit (UInt8.ofNat first))).active = rest := by
  rw [active_without, active_latched]
  exact sources_and_not waiting

/-- Fewer sources ask for the processor after a turn that acknowledged one. -/
theorem length_sources_lt {source : UInt32} {after : Controller}
    (turn : controller.serveOnce.value = (some source, after)) :
    (sources after.active).length < (sources controller.active).length := by
  cases waiting : sources controller.active with
  | nil =>
      rw [serveOnce_of_nil waiting] at turn
      cases turn
  | cons first rest =>
      rw [serveOnce_of_cons waiting] at turn
      cases turn
      rw [sources_of_cons waiting]
      exact Nat.lt_succ_self _

/-- A turn that acknowledged a source, and what was seen of it. -/
structure Acknowledgement where
  source : UInt32
  events : List Event

/-- What comes of the loop: the turns that acknowledged a source, what was seen of the turn that
found none, and the controller after it. -/
structure Service where
  acknowledgements : List Acknowledgement
  ending : List Event
  after : Controller

/-- Takes turns until one acknowledges nothing. -/
def serve (controller : Controller) : Service :=
  match turn : controller.serveOnce.value with
  | (none, after) => ⟨[], controller.serveOnce.signals, after⟩
  | (some source, after) =>
      have := length_sources_lt turn
      let further := after.serve
      { further with
        acknowledgements := ⟨source, controller.serveOnce.signals⟩ :: further.acknowledgements }
termination_by (sources controller.active).length

theorem serve_of_nil (quiet : sources controller.active = []) :
    controller.serve = ⟨[], [remark], controller⟩ := by
  have turn := congrArg Traced.value (serveOnce_of_nil quiet)
  unfold serve
  split
  next after none =>
    cases none.symm.trans turn
    rw [serveOnce_of_nil quiet]
  next source after some => cases some.symm.trans turn

theorem serve_of_cons (waiting : sources controller.active = first :: rest) :
    let further := (controller.latched.without (sourceBit (UInt8.ofNat first))).serve
    controller.serve = { further with
      acknowledgements :=
        ⟨UInt32.ofNat first, controller.serveOnce.signals⟩ :: further.acknowledgements } := by
  intro further
  have turn := congrArg Traced.value (serveOnce_of_cons waiting)
  conv_lhs => unfold serve
  split
  next after none => cases none.symm.trans turn
  next source after some => cases some.symm.trans turn; rfl

/-- The levels that are told of the line in the turns of the loop. -/
def Service.levels (service : Service) : List (List Bool) :=
  service.acknowledgements.map fun turn => turn.events.filterMap Event.level?

/-- What the loop does when it finds the sources in this order. -/
structure Drains (controller : Controller) (order : List (Fin 32)) (service : Service) : Prop where
  served : service.acknowledgements.map Acknowledgement.source =
    order.map fun source : Fin 32 => UInt32.ofNat source
  /-- Only the pending sources are changed. -/
  after : service.after = { controller with
    bank := controller.bank.put pendingIndex (controller.pending &&& ~~~controller.enabled)
    line := false }
  /-- The line falls in the last of the turns. -/
  levels : service.levels =
    (List.range order.length).map fun turn => if turn + 1 = order.length then [false] else []
  ending : service.ending.filterMap Event.level? = []

/-- The line falls in the turn that acknowledges the last source. -/
theorem levels_serveOnce (driven : controller.IsDriven)
    (waiting : sources controller.active = first :: rest) :
    controller.serveOnce.signals.filterMap Event.level? =
      if rest.length = 0 then [false] else [] := by
  have high : controller.latched.line = true := by
    change controller.line = true
    rw [driven.line_eq, waiting]
    rfl
  have leaves : IsDriven (controller.latched.without (sourceBit (UInt8.ofNat first))) := rfl
  have told := controller.latched.levels_clear (UInt8.ofNat first)
  rw [leaves.line_eq, sources_of_cons waiting, high] at told
  rw [serveOnce_of_cons waiting]
  refine told.trans ?_
  cases rest <;> rfl

/-- What is pending and not enabled stays pending. -/
theorem disabled_without (waiting : sources controller.active = first :: rest) :
    let after := controller.without (sourceBit (UInt8.ofNat first))
    after.pending &&& ~~~after.enabled = controller.pending &&& ~~~controller.enabled := by
  have enabled : first ∈ sources controller.enabled := by
    have asks : first ∈ sources controller.active := waiting ▸ List.mem_cons_self
    rw [mem_sources, active, UInt32.toNat_and, Nat.testBit_and, Bool.and_eq_true] at asks
    exact mem_sources.2 asks.2
  dsimp only
  rw [pending_without, enabled_without, and_not_and_not (sourceBit_and enabled)]

/-- From a controller that is driven and keeps nothing but what was written to it, the loop serves
all sources that ask for the processor. -/
theorem serve_drains {order : List (Fin 32)} (driven : controller.IsDriven)
    (consistent : controller.IsConsistent) (waiting : sources controller.active = order) :
    Drains controller order controller.serve := by
  induction order generalizing controller with
  | nil =>
      have kept : controller.pending &&& ~~~controller.enabled = controller.pending :=
        and_not_of_and_eq_zero (sources_eq_nil_iff.1 waiting)
      have low : controller.line = false := by
        rw [driven.line_eq, waiting]
        rfl
      rw [serve_of_nil waiting]
      refine ⟨rfl, ?_, rfl, rfl⟩
      rw [kept, pending, Bank.put_get, ← low]
  | cons first rest ih =>
      have left := sources_of_cons waiting
      have turn := serve_of_cons waiting
      have seen := levels_serveOnce driven waiting
      rw [latched_eq_self consistent] at left turn
      generalize next : controller.without (sourceBit (UInt8.ofNat first)) = after at left turn
      have drains : Drains after rest after.serve := by
        subst next
        exact ih rfl (Eq.trans (congrArg (· &&& ~~~latchBits) (Bank.get_put_of_ne _ (by decide) _))
          consistent) left
      rw [turn]
      constructor
      · exact congrArg (List.cons (UInt32.ofNat first)) drains.served
      · refine drains.after.trans ?_
        rw [← next, disabled_without waiting]
        exact congrArg (mk · false) (Bank.put_put _ _ _ _)
      · change controller.serveOnce.signals.filterMap Event.level? :: after.serve.levels = _
        rw [drains.levels, seen, List.length_cons, List.range_succ_eq_map, List.map_cons,
          List.map_map]
        simp [Function.comp_def]
      · exact drains.ending

/-! ## Serving from power-on -/

theorem perform_evolves (controller : Controller) (command : Command) :
    Evolves controller (controller.perform command).value.2 := by
  cases command with
  | read width address => exact read_evolves controller width address
  | write width address value => exact write_evolves controller width address value
  | poll => exact .refl controller
  | reset => exact reset_evolves controller
  | post source => exact post_evolves controller source
  | clear source => exact clear_evolves controller source
  | setEnabled mask => exact drive_evolves rfl fun fits => fits.set enableIndex mask
  | restore saved => exact restore_evolves controller saved

/-- Nothing but what is written to the vector register is kept there, unless something else was
saved of it. -/
theorem perform_isConsistent (built : controller.bank.Built) (consistent : controller.IsConsistent)
    {command : Command} (runs : ∀ saved, command ≠ .restore saved) :
    (controller.perform command).value.2.IsConsistent := by
  cases command with
  | read width address =>
      have kept : (controller.perform (.read width address)).value.2 = controller :=
        (read_eq_self controller width address).1
      rw [kept]
      exact consistent
  | write width address value => exact write_isConsistent consistent width address value
  | poll => exact consistent
  | reset => exact reset_isConsistent built
  | restore saved => exact absurd rfl (runs saved)
  -- the others change a mask
  | post source => exact drive_isConsistent consistent (Bank.get_set_of_ne _ (by decide) _)
  | clear source => exact drive_isConsistent consistent (Bank.get_set_of_ne _ (by decide) _)
  | setEnabled mask => exact drive_isConsistent consistent (Bank.get_set_of_ne _ (by decide) _)

theorem performAll_isConsistent {commands : List Command} (built : controller.bank.Built)
    (consistent : controller.IsConsistent) (runs : ∀ saved, .restore saved ∉ commands) :
    (controller.performAll commands).value.2.IsConsistent := by
  induction commands generalizing controller with
  | nil => exact consistent
  | cons command rest ih =>
      have evolves := perform_evolves controller command
      refine ih ⟨evolves.resets.trans built.resets, evolves.fits built.fits⟩ ?_ ?_
      · exact perform_isConsistent built consistent fun saved same =>
          runs saved (same ▸ List.mem_cons_self)
      · exact fun saved further => runs saved (List.mem_cons_of_mem command further)

/-- What an access selects that starts above the lowest byte of the vector register. -/
theorem find?_above_lowestByte {width : Width} {address : UInt32} {selection : Selection registers}
    (above : 0 < address) (below : address < 4)
    (found : Selection.find? registers width address = some selection) :
    selection.index = vectorIndex ∧ selection.lane.touches vectorBits = false := by
  have places : address = 1 ∨ address = 2 ∨ address = 3 := by
    simp only [UInt32.lt_iff_toNat_lt, ← UInt32.toNat_inj] at *
    change 0 < _ at above
    change _ < 4 at below
    change _ = 1 ∨ _ = 2 ∨ _ = 3
    omega
  have selects : (Selection.find? registers width address).all fun selection =>
      selection.index = vectorIndex ∧ selection.lane.touches vectorBits = false := by
    rcases places with rfl | rfl | rfl <;> cases width <;> decide
  rw [found] at selects
  simpa using selects

/-- A write that covers none of the lowest byte of the vector register changes at most what is kept
there, and acknowledges nothing. -/
theorem write_above_lowestByte (consistent : controller.IsConsistent) (width : Width)
    {address : UInt32} (value : UInt32) (above : 0 < address) (below : address < 4) :
    (∃ latch, latch &&& latchBits = latch ∧ (controller.write width address value).value =
      { controller with bank := controller.bank.put vectorIndex latch }) ∧
    ∀ event ∈ (controller.write width address value).signals,
      ∃ remark : Note, remark.IsOfAccess ∧ event = .note remark := by
  have remarked : ∀ event ∈ (Selection.noted Event.note "intc" registers width address).signals,
      ∃ remark : Note, remark.IsOfAccess ∧ event = .note remark :=
    Selection.noted_signalsOnly (fun remark of => ⟨remark, of, rfl⟩) "intc" registers width
      address
  unfold write
  rw [Traced.value_bind, Traced.signals_bind, Selection.value_noted]
  split
  next =>
    refine ⟨⟨controller.stored &&& latchBits, ?_, (latched_eq_self consistent).symm⟩, ?_⟩
    · rw [UInt32.and_assoc, UInt32.and_self]
    · rwa [Traced.signals_pure, List.append_nil]
  next selection found =>
    obtain ⟨vector, misses⟩ := find?_above_lowestByte above below found
    dsimp only
    rw [if_pos vector, misses, if_neg Bool.false_ne_true]
    refine ⟨⟨(controller.bank.write selection value).1.new &&& latchBits, ?_, ?_⟩, ?_⟩
    · rw [UInt32.and_assoc, UInt32.and_self]
    · rw [set_vector, Bank.write, vector]
      exact congrArg (mk · controller.line) (Bank.put_put _ _ _ _)
    · rwa [Traced.signals_pure, List.append_nil]

/-- From power-on, whatever has been done to the controller but to restore it: the loop
acknowledges as many sources as are both pending and enabled, just these, in strictly ascending
order; it leaves pending what is not enabled, and everything else as it was but for the line, which
falls in the last turn that acknowledges a source and is told of at no other time. Writes to the
other bytes of the vector register change at most what is kept there. -/
theorem serve_of_history (commands : List Command) (runs : ∀ saved, .restore saved ∉ commands) :
    let controller := (Controller.performAll {} commands).value.2
    let waiting := controller.pending &&& controller.enabled
    let count := waiting.toBitVec.cpop.toNat
    let served := controller.serve.acknowledgements.map Acknowledgement.source
    served.length = count ∧
      served.Pairwise (· < ·) ∧
      (∀ source, source ∈ served ↔ waiting.toNat.testBit source.toNat = true) ∧
      controller.serve.after = { controller with
        bank := controller.bank.put pendingIndex (controller.pending &&& ~~~controller.enabled)
        line := false } ∧
      controller.serve.levels =
        ((List.range count).map fun turn => if turn + 1 = count then [false] else []) ∧
      controller.serve.ending.filterMap Event.level? = [] ∧
      ∀ (width : Width) (address value : UInt32), 0 < address → address < 4 →
        (∃ latch, latch &&& latchBits = latch ∧ (controller.write width address value).value =
          { controller with bank := controller.bank.put vectorIndex latch }) ∧
        ∀ event ∈ (controller.write width address value).signals,
          ∃ remark : Note, remark.IsOfAccess ∧ event = .note remark := by
  intro controller waiting count served
  have initial : IsDriven {} := rfl
  have driven : controller.IsDriven := (performAll_leads initial commands).driven
  have consistent : controller.IsConsistent := by
    refine performAll_isConsistent ⟨rfl, Bank.fits_initial ?_⟩ ?_ runs
    · decide
    · exact (by decide : IsLatched ((Bank.initial registers).get vectorIndex))
  have drains := serve_drains driven consistent rfl
  have number (source : Fin 32) : (UInt32.ofNat source).toNat = source :=
    UInt32.toNat_ofNat_of_lt' (source.isLt.trans (by decide))
  have length : (sources waiting).length = count := length_sources waiting
  have order : served = (sources waiting).map fun source : Fin 32 => UInt32.ofNat source :=
    drains.served
  refine ⟨?_, ?_, fun source => ?_, drains.after, ?_, drains.ending, ?_⟩
  · rw [order, List.length_map, length]
  · rw [order, List.pairwise_map]
    refine (sources_ascending waiting).imp fun {lower upper} below => ?_
    rwa [UInt32.lt_iff_toNat_lt, number, number, Fin.val_fin_lt]
  · rw [order, List.mem_map]
    constructor
    · rintro ⟨found, member, rfl⟩
      rw [number]
      exact mem_sources.1 member
    · intro set
      have within : source.toNat < 32 := by
        by_contra beyond
        have unset := Nat.testBit_lt_two_pow
          (waiting.toNat_lt.trans_le (Nat.pow_le_pow_right (by decide) (Nat.le_of_not_lt beyond)))
        exact Bool.false_ne_true (unset.symm.trans set)
      refine ⟨⟨source.toNat, within⟩, mem_sources.2 set, ?_⟩
      exact UInt32.ofNat_toNat
  · rw [← length]
    exact drains.levels
  · exact fun width address value above below =>
      write_above_lowestByte consistent width value above below

/-- Of four sources that were posted the three that are enabled are served. -/
theorem serve_of_posts :
    let commands : List Command := [.setEnabled 0x92, .post 4, .post 7, .post 3, .post 1]
    let controller := (Controller.performAll {} commands).value.2
    (∀ saved, .restore saved ∉ commands) ∧
      (controller.serve.acknowledgements.map Acknowledgement.source).length = 3 ∧
      controller.serve.levels = [[], [], [false]] ∧
      controller.serve.after.pending = 0x8 := by
  intro commands controller
  have runs : ∀ saved, .restore saved ∉ commands := by simp [commands]
  obtain ⟨length, -, -, after, levels, -⟩ := serve_of_history commands runs
  have count : (controller.pending &&& controller.enabled).toBitVec.cpop.toNat = 3 := by decide
  refine ⟨runs, length.trans count, ?_, ?_⟩
  · rw [levels, count]
    rfl
  · rw [after, pending, Bank.get_put_self]
    decide

end Controller

end Interrupt

end SocPeripherals
