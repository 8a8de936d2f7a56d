import SocPeripherals.Bus.Ram
import Mathlib.Data.Nat.Bitwise
import Mathlib.Tactic.Ring

/-!
# The bytes of a memory

A memory is known by its size and its bytes. What a store writes are the bytes of the value, what
a load reads is the value of the bytes, and storing what was loaded copies the bytes from one place
to the other.
-/

namespace SocPeripherals

namespace Ram

variable {ram other : Ram} {start count index place : Nat}

theorem ext_byteAt (size : ram.size = other.size)
    (bytes : ∀ index < ram.size, ram.byteAt index = other.byteAt index) : ram = other := by
  obtain ⟨contents⟩ := ram
  obtain ⟨contents'⟩ := other
  refine congrArg Ram.mk (Array.ext size fun index inside insideToo => ?_)
  have same := bytes index inside
  unfold byteAt at same
  rwa [Array.getElem_eq_getD 0, Array.getElem_eq_getD 0]

theorem byteAt_of_size_le (outside : ram.size ≤ index) : ram.byteAt index = 0 := by
  unfold byteAt
  rw [Array.getD_eq_getD_getElem?, Array.getElem?_eq_none outside]
  rfl

/-- A byte of a value, lowest first. -/
def valueByte (value : UInt32) (place : Nat) : UInt8 := UInt8.ofNat (value.toNat / 256 ^ place)

theorem valueByte_zero (value : UInt32) : valueByte value 0 = value.toUInt8 := by
  rw [valueByte, pow_zero, Nat.div_one]
  exact UInt8.ofNat_uInt32ToNat value

theorem valueByte_shiftRight (value : UInt32) (place : Nat) :
    valueByte (value >>> 8) place = valueByte value (place + 1) := by
  unfold valueByte
  rw [UInt32.toNat_shiftRight, Nat.shiftRight_eq_div_pow, Nat.div_div_eq_div_mul, pow_succ']
  rfl

/-! ## Stores -/

theorem byteAt_setIfInBounds (ram : Ram) (place index : Nat) (byte : UInt8) :
    byteAt ⟨ram.bytes.setIfInBounds place byte⟩ index
      = if place = index ∧ index < ram.size then byte else ram.byteAt index := by
  unfold byteAt size
  rw [Array.getD_eq_getD_getElem?, Array.getD_eq_getD_getElem?, Array.getElem?_setIfInBounds]
  by_cases here : place = index
  · subst here
    by_cases inside : place < ram.bytes.size
    · rw [if_pos rfl, if_pos inside, if_pos ⟨rfl, inside⟩, Option.getD_some]
    · rw [if_pos rfl, if_neg inside, if_neg (inside ·.2),
        Array.getElem?_eq_none (Nat.le_of_not_lt inside)]
  · rw [if_neg here, if_neg (here ·.1)]

/-- A store writes the bytes of the value, as far as the memory reaches. -/
theorem byteAt_store (ram : Ram) (start : Nat) (value : UInt32) (count index : Nat) :
    (ram.store start value count).byteAt index =
      if start ≤ index ∧ index < start + count ∧ index < ram.size then
        valueByte value (index - start)
      else ram.byteAt index := by
  induction count generalizing ram start value with
  | zero => rw [if_neg (by omega)]; rfl
  | succ count ih =>
      have size : Ram.size ⟨ram.bytes.setIfInBounds start value.toUInt8⟩ = ram.size :=
        Array.size_setIfInBounds
      rw [store, ih, size, valueByte_shiftRight, byteAt_setIfInBounds]
      by_cases later : start + 1 ≤ index ∧ index < start + 1 + count ∧ index < ram.size
      · rw [if_pos later, if_pos (by omega)]
        congr 1
        omega
      · rw [if_neg later]
        by_cases here : start = index ∧ index < ram.size
        · obtain ⟨rfl, inside⟩ := here
          rw [if_pos ⟨rfl, inside⟩, if_pos (by omega), Nat.sub_self, valueByte_zero]
        · rw [if_neg here, if_neg (by omega)]

/-! ## Loads -/

/-- A byte before a value of at most three bytes. -/
theorem toNat_byte_or_shiftLeft (byte : UInt8) {value : UInt32} (short : value.toNat < 256 ^ 3) :
    (byte.toUInt32 ||| value <<< 8).toNat = byte.toNat + 256 * value.toNat := by
  have shifted : (value <<< 8).toNat = 2 ^ 8 * value.toNat := by
    rw [UInt32.toNat_shiftLeft, Nat.shiftLeft_eq, Nat.mul_comm]
    exact Nat.mod_eq_of_lt (by change 2 ^ 8 * _ < 2 ^ 32; omega)
  rw [UInt32.toNat_or, shifted, UInt8.toNat_toUInt32, Nat.or_comm,
    ← Nat.two_pow_add_eq_or_of_lt byte.toNat_lt, Nat.add_comm]

/-- The value of some bytes has no bits beyond them. -/
theorem toNat_load_lt (ram : Ram) (start : Nat) (few : count ≤ 4) :
    (ram.load start count).toNat < 256 ^ count := by
  induction count generalizing start with
  | zero => exact Nat.one_pos
  | succ count ih =>
      have rest := ih (start + 1) (by omega)
      have short : (ram.load (start + 1) count).toNat < 256 ^ 3 :=
        rest.trans_le (Nat.pow_le_pow_right (by decide) (by omega))
      have small := (ram.byteAt start).toNat_lt
      rw [load, toNat_byte_or_shiftLeft _ short, pow_succ]
      omega

theorem toNat_load_succ (ram : Ram) (start : Nat) (few : count < 4) :
    (ram.load start (count + 1)).toNat
      = (ram.byteAt start).toNat + 256 * (ram.load (start + 1) count).toNat :=
  toNat_byte_or_shiftLeft _ ((ram.toNat_load_lt (start + 1) few.le).trans_le
    (Nat.pow_le_pow_right (by decide) (by omega)))

theorem valueByte_load (ram : Ram) (start : Nat) (few : count ≤ 4) (inside : place < count) :
    valueByte (ram.load start count) place = ram.byteAt (start + place) := by
  induction count generalizing start place with
  | zero => contradiction
  | succ count ih =>
      have small := (ram.byteAt start).toNat_lt
      unfold valueByte at *
      rw [ram.toNat_load_succ start few]
      cases place with
      | zero =>
          rw [pow_zero, Nat.div_one, Nat.add_zero, ← UInt8.toNat_inj, UInt8.toNat_ofNat',
            Nat.add_mul_mod_self_left, Nat.mod_eq_of_lt small]
          rfl
      | succ place =>
          rw [pow_succ', ← Nat.div_div_eq_div_mul, Nat.add_mul_div_left _ _ (by decide),
            Nat.div_eq_of_lt small, Nat.zero_add, ih (start + 1) (by omega) (by omega)]
          congr 1
          omega

/-! ## Copies -/

/-- Copies bytes from one place to another, all of them at once. -/
def copy (ram : Ram) (source target count : Nat) : Ram where
  bytes := .ofFn fun index : Fin ram.size =>
    if target ≤ index ∧ index < target + count then ram.byteAt (source + (index - target))
    else ram.byteAt index

@[simp]
theorem size_copy (ram : Ram) (source target count : Nat) :
    (ram.copy source target count).size = ram.size :=
  Array.size_ofFn

theorem byteAt_copy (ram : Ram) (source : Nat) {target : Nat}
    (inside : target + count ≤ ram.size) (index : Nat) :
    (ram.copy source target count).byteAt index =
      if target ≤ index ∧ index < target + count then ram.byteAt (source + (index - target))
      else ram.byteAt index := by
  by_cases known : index < ram.size
  · unfold copy byteAt
    dsimp only
    rw [Array.getD_eq_getD_getElem?, Array.getElem?_ofFn, dif_pos known]
    rfl
  · have outside := Nat.le_of_not_lt known
    rw [if_neg (by omega), byteAt_of_size_le outside,
      byteAt_of_size_le ((ram.size_copy source target count).trans_le outside)]

/-- Storing what was loaded copies the bytes. -/
theorem store_load (ram : Ram) (source : Nat) {target : Nat} (few : count ≤ 4)
    (inside : target + count ≤ ram.size) :
    ram.store target (ram.load source count) count = ram.copy source target count := by
  have size := ram.size_store target count (ram.load source count)
  refine ext_byteAt (size.trans (ram.size_copy source target count).symm) fun index known => ?_
  rw [byteAt_store, byteAt_copy ram source inside]
  rw [size] at known
  by_cases written : target ≤ index ∧ index < target + count
  · rw [if_pos ⟨written.1, written.2, known⟩, if_pos written,
      ram.valueByte_load source few (by omega)]
  · rw [if_neg (by omega), if_neg written]

end Ram

end SocPeripherals
