import SocPeripherals.Proofs.Bus.Ram
import SocPeripherals.Proofs.Uart.Access

/-!
# The bytes of a register

A bus access that begins in a register covers the bytes of the register from there on, as many as
its width has and the register has left. A write puts the bytes of the bus value there and leaves
the others, a read gives the covered bytes and no others.
-/

namespace SocPeripherals

open Ram (valueByte)

/-! ## Bits of bytes -/

theorem Ram.getLsbD_valueByte (value : UInt32) (place : Nat) {position : Nat}
    (within : position < 8) : (valueByte value place).toBitVec.getLsbD position
      = value.toBitVec.getLsbD (8 * place + position) := by
  have parts : value.toNat / 256 ^ place = value.toNat / 2 ^ (8 * place) := by
    rw [pow_mul]
    rfl
  change (BitVec.ofNat 8 (value.toNat / 256 ^ place)).getLsbD position = _
  rw [BitVec.getLsbD_ofNat, parts, Nat.testBit_div_two_pow, Nat.add_comm, decide_eq_true within,
    Bool.true_and]
  exact BitVec.testBit_toNat value.toBitVec

/-- A byte of one value is a byte of another one if its bits are. -/
theorem Ram.valueByte_eq {value other : UInt32} {place placeOther : Nat}
    (same : ∀ position < 8, value.toBitVec.getLsbD (8 * place + position)
      = other.toBitVec.getLsbD (8 * placeOther + position)) :
    valueByte value place = valueByte other placeOther := by
  refine UInt8.toBitVec_inj.1 (BitVec.eq_of_getLsbD_eq fun position within => ?_)
  rw [getLsbD_valueByte value place within, getLsbD_valueByte other placeOther within]
  exact same position within

theorem Width.getLsbD_mask (width : Width) (position : Nat) :
    width.mask.toBitVec.getLsbD position = decide (position < 8 * width.bytes.toNat) := by
  by_cases within : position < 32
  · cases width <;> revert position <;> decide
  · have most := width.toNat_bytes_le
    rw [BitVec.getLsbD_of_ge _ _ (Nat.not_lt.1 within), eq_comm, decide_eq_false_iff_not]
    omega

namespace Register

variable {register : Register} {width : Width} {address : UInt32} {place position : Nat}

/-- The access covers a byte of the register, lowest first. -/
def Covers (register : Register) (width : Width) (address : UInt32) (place : Nat) : Prop :=
  register.Contains address ∧ place < register.width.bytes.toNat ∧
    address.toNat ≤ register.offset.toNat + place ∧
    register.offset.toNat + place < address.toNat + width.bytes.toNat

instance (register : Register) (width : Width) (address : UInt32) (place : Nat) :
    Decidable (register.Covers width address place) :=
  inferInstanceAs (Decidable (_ ∧ _))

theorem Covers.valid (covers : register.Covers width address place) : width ≠ .invalid := by
  rintro rfl
  exact absurd (covers.2.2.1.trans_lt covers.2.2.2) (Nat.lt_irrefl _)

/-- The lanes begin with the byte at the address. -/
theorem toNat_shift_lane (contains : register.Contains address) (width : Width) :
    (register.lane width address).shift.toNat
      = 8 * (address.toNat - register.offset.toNat) ∧
    address.toNat - register.offset.toNat < 4 := by
  obtain ⟨le, near⟩ := contains
  have skip := skip_lt near
  have difference := UInt32.toNat_sub_of_le _ _ le
  rw [difference] at skip
  refine ⟨?_, skip⟩
  rw [lane]
  dsimp only
  rw [UInt32.toNat_mul, difference, Nat.mul_comm]
  exact Nat.mod_eq_of_lt (by change 8 * _ < 2 ^ 32; omega)

theorem getLsbD_shiftLeft (value : UInt32) {shift : UInt32} (short : shift.toNat < 32)
    (within : position < 32) : (value <<< shift).toBitVec.getLsbD position
      = (decide (shift.toNat ≤ position) && value.toBitVec.getLsbD (position - shift.toNat)) := by
  have small : (shift.toBitVec % 32).toNat = shift.toNat := Nat.mod_eq_of_lt short
  rw [UInt32.toBitVec_shiftLeft, BitVec.getLsbD_shiftLeft', small, decide_eq_true within,
    Bool.true_and, ← decide_not]
  simp only [Nat.not_lt]

theorem getLsbD_shiftRight (value : UInt32) {shift : UInt32} (short : shift.toNat < 32) :
    (value >>> shift).toBitVec.getLsbD position
      = value.toBitVec.getLsbD (shift.toNat + position) := by
  have small : (shift.toBitVec % 32).toNat = shift.toNat := Nat.mod_eq_of_lt short
  rw [UInt32.toBitVec_shiftRight, BitVec.ushiftRight_eq', BitVec.getLsbD_ushiftRight, small]

/-- The lanes are made up of the covered bytes. -/
theorem getLsbD_mask_lane (contains : register.Contains address) (within : position < 8)
    (place : Nat) : (register.lane width address).mask.toBitVec.getLsbD (8 * place + position)
      = decide (register.Covers width address place) := by
  obtain ⟨shift, near⟩ := toNat_shift_lane contains width
  have le := UInt32.le_iff_toNat_le.1 contains.1
  have size := register.width.toNat_bytes_le
  have bit : (register.lane width address).mask.toBitVec.getLsbD (8 * place + position)
      = ((width.mask <<< (register.lane width address).shift).toBitVec.getLsbD
          (8 * place + position)
        && register.width.mask.toBitVec.getLsbD (8 * place + position)) := by
    rw [← BitVec.getLsbD_and, ← UInt32.toBitVec_and]
    rfl
  rw [bit, Width.getLsbD_mask]
  by_cases inside : place < register.width.bytes.toNat
  · rw [getLsbD_shiftLeft _ (by omega) (by omega), Width.getLsbD_mask, ← Bool.decide_and,
      ← Bool.decide_and, decide_eq_decide, shift, Covers, and_iff_right contains]
    omega
  · have outside : ¬8 * place + position < 8 * register.width.bytes.toNat := by omega
    rw [decide_eq_false outside, Bool.and_false, eq_comm, decide_eq_false_iff_not]
    exact fun covers => inside covers.2.1

/-- A bit belongs to the lanes if its byte is covered. -/
theorem getLsbD_mask_lane_at (contains : register.Contains address) (position : Nat) :
    (register.lane width address).mask.toBitVec.getLsbD position
      = decide (register.Covers width address (position / 8)) := by
  rw [← getLsbD_mask_lane contains (Nat.mod_lt position (by decide)), Nat.div_add_mod]

/-- The bits of a bus value where the access puts them. -/
theorem getLsbD_place (contains : register.Contains address) (value : UInt32) {position : Nat}
    (within : position < 32) :
    ((register.lane width address).place value).toBitVec.getLsbD position =
      (decide (register.Covers width address (position / 8)) &&
        value.toBitVec.getLsbD (position - 8 * (address.toNat - register.offset.toNat))) := by
  obtain ⟨shift, near⟩ := toNat_shift_lane contains width
  have short : (register.lane width address).shift.toNat < 32 := by omega
  have moved := getLsbD_shiftLeft value short within
  have parts : ((register.lane width address).place value).toBitVec.getLsbD position =
      ((value <<< (register.lane width address).shift).toBitVec.getLsbD position &&
        (register.lane width address).mask.toBitVec.getLsbD position) := by
    rw [Lane.place, UInt32.toBitVec_and, BitVec.getLsbD_and]
  rw [parts, getLsbD_mask_lane_at contains, moved, shift, Bool.and_comm]
  by_cases covers : register.Covers width address (position / 8)
  · have reached : 8 * (address.toNat - register.offset.toNat) ≤ position := by
      have := covers.2.2.1
      omega
    rw [decide_eq_true reached, Bool.true_and]
  · rw [decide_eq_false covers, Bool.false_and, Bool.false_and]

/-- A write puts the bytes of the bus value where it covers the register. -/
theorem valueByte_merge (contains : register.Contains address) (old value : UInt32)
    (inside : place < 4) :
    valueByte ((register.lane width address).merge old value) place =
      if register.Covers width address place then
        valueByte value (register.offset.toNat + place - address.toNat)
      else valueByte old place := by
  obtain ⟨shift, near⟩ := toNat_shift_lane contains width
  have mask {position : Nat} (within : position < 8) :
      (register.lane width address).mask.toBitVec.getLsbD (8 * place + position)
        = decide (register.Covers width address place) := getLsbD_mask_lane contains within place
  have le := UInt32.le_iff_toNat_le.1 contains.1
  generalize register.lane width address = lane at shift mask ⊢
  have bit {position : Nat} (within : position < 8) :
      (lane.merge old value).toBitVec.getLsbD (8 * place + position)
        = (old.toBitVec.getLsbD (8 * place + position)
            && !decide (register.Covers width address place)
          || (value <<< lane.shift).toBitVec.getLsbD (8 * place + position)
            && decide (register.Covers width address place)) := by
    have full : 8 * place + position < 32 := by omega
    simp only [Lane.merge, Lane.place, UInt32.toBitVec_or, UInt32.toBitVec_and, UInt32.toBitVec_not,
      BitVec.getLsbD_or, BitVec.getLsbD_and, BitVec.getLsbD_not, mask within, full, decide_true,
      Bool.true_and]
  split
  next covers =>
    refine Ram.valueByte_eq fun position within => ?_
    have from_address := covers.2.2.1
    have reached : lane.shift.toNat ≤ 8 * place + position := by omega
    rw [bit within, decide_eq_true covers, Bool.not_true, Bool.and_false, Bool.false_or,
      Bool.and_true, getLsbD_shiftLeft _ (by omega) (by omega), decide_eq_true reached,
      Bool.true_and]
    congr 1
    omega
  next spared =>
    refine Ram.valueByte_eq fun position within => ?_
    rw [bit within, decide_eq_false spared, Bool.not_false, Bool.and_true, Bool.and_false,
      Bool.or_false]

end Register

end SocPeripherals
