import SocPeripherals.Proofs.Lockstep.Native
import SocPeripherals.Proofs.Lockstep.Twins
import SocPeripherals.Register.Checked

/-!
# Within bounds

What reaches into an array, a word or a clock with a number of its own making stays within it:
an access selects lanes of a word and a register of the bank, an address leads to a part that there
is, and a deadline that is cancelled belongs to the clock.
-/

namespace SocPeripherals

namespace Selection

variable {table : List Register} {width : Width} {address : UInt32} {selection : Selection table}

/-- The lanes of an access begin within the word. -/
theorem shift_lt_of_find? (found : find? table width address = some selection) :
    selection.lane.shift < 32 := by
  obtain ⟨⟨_, inside⟩, lane⟩ := contains_of_find? found
  have bytes : selection.register.width.bytes ≤ 4 := by
    cases selection.register.width <;> decide
  rw [lane, Register.lane]
  dsimp only
  generalize address - selection.register.offset = offset at *
  grind

end Selection

namespace Bank

variable {table : List Register} {width : Width} {address : UInt32} {selection : Selection table}

/-- What an access selects is a register of the bank, and lanes within the word. -/
theorem checked_of_find? (found : Selection.find? table width address = some selection)
    (bank : Bank table) (value : UInt32) :
    bank.readChecked selection.index selection.lane = .ok (bank.read selection) ∧
      bank.writeChecked selection.index selection.lane value = .ok (bank.write selection value) := by
  have short := Selection.shift_lt_of_find? found
  have numbered : bank.index selection.index = .ok selection.index := by
    rw [Bank.index, dif_pos selection.index.isLt]
  have extracted : selection.lane.extractChecked (bank.get selection.index)
      = .ok (selection.lane.extract (bank.get selection.index)) := if_pos short
  have placed : selection.lane.placeChecked value = .ok (selection.lane.place value) :=
    if_pos short
  constructor
  · unfold readChecked
    rw [numbered]
    simp [extracted, bind, Except.bind, pure, Except.pure]
  · unfold writeChecked
    rw [numbered]
    cases access : selection.register.access <;>
      simp [placed, access, bind, Except.bind, pure, Except.pure]

end Bank

namespace Block

/-- The number of a part within a range of equal strides. -/
theorem toNat_div_lt {base stride address : UInt32} {count : Nat}
    (first : base ≤ address) (last : address.toNat < base.toNat + count * stride.toNat) :
    ((address - base) / stride).toNat < count := by
  rw [UInt32.toNat_div, UInt32.toNat_sub_of_le _ _ first]
  have low := UInt32.le_iff_toNat_le.1 first
  have positive : 0 < stride.toNat := by
    refine Nat.pos_of_ne_zero fun zero => ?_
    rw [zero] at last
    omega
  rw [Nat.div_lt_iff_lt_mul positive]
  omega

/-- The addresses that are routed to a part. -/
theorem of_route? {address offset : UInt32} {part : Part}
    (routed : route? address = some (part, offset)) :
    match part with
    | .misc => address < 0x8 ∧ offset = address
    | .controller => controllerBase ≤ address ∧ address < controllerBase + 0xc ∧
        offset = address - controllerBase
    | .dma => dmaBase ≤ address ∧ address < dmaBase + 2 * Dma.stride ∧ offset = address - dmaBase
    | .timer index => timerBase ≤ address ∧ address < timerBase + 4 * Timer.stride ∧
        index.val = ((address - timerBase) / Timer.stride).toNat ∧
        offset = (address - timerBase) % Timer.stride
    | .uart index => uartBase ≤ address ∧ address < uartBase + 2 * Uart.stride ∧
        index.val = ((address - uartBase) / Uart.stride).toNat ∧
        offset = (address - uartBase) % Uart.stride := by
  unfold route? at routed
  split at routed
  next low =>
    cases routed
    exact ⟨low, rfl⟩
  next =>
    split at routed
    next here =>
      cases routed
      exact ⟨here.1, here.2, rfl⟩
    next =>
      split at routed
      next here =>
        cases routed
        exact ⟨here.1, here.2, rfl⟩
      next =>
        split at routed
        next here =>
          cases routed
          have number : ((address - timerBase) / Timer.stride).toNat < timerCount :=
            toNat_div_lt here.1 (UInt32.lt_iff_toNat_lt.1 here.2)
          exact ⟨here.1, here.2, Nat.mod_eq_of_lt number, rfl⟩
        next =>
          split at routed
          next here =>
            cases routed
            have number : ((address - uartBase) / Uart.stride).toNat < uartCount :=
              toNat_div_lt here.1 (UInt32.lt_iff_toNat_lt.1 here.2)
            exact ⟨here.1, here.2, Nat.mod_eq_of_lt number, rfl⟩
          next => contradiction

/-- An address of a timer or of a serial interface is that of one there is. -/
theorem number_of_route? {address offset : UInt32} {part : Part}
    (routed : route? address = some (part, offset)) :
    (∀ index, part = .timer index →
        index.val = ((address - timerBase) / Timer.stride).toNat) ∧
      ∀ index, part = .uart index → index.val = ((address - uartBase) / Uart.stride).toNat := by
  refine ⟨?_, ?_⟩
  · rintro index rfl
    exact (of_route? routed).2.2.1
  · rintro index rfl
    exact (of_route? routed).2.2.1

/-- A block cancels only deadlines that its clock has issued. -/
theorem IsNative.cancel_ok {μ : Type} {block : Block μ} (native : block.IsNative)
    {deadline : Deadline} (known : deadline ∈ block.held) :
    block.clock.cancel deadline = .ok (block.clock.drop deadline) := by
  obtain ⟨other, _, deadlines⟩ := Multiset.exists_mem_of_rel_of_mem native.held known
  have own : deadline.clock = block.clock.identity := deadlines.1
  rw [Clock.cancel, if_pos own]

end Block

end SocPeripherals
