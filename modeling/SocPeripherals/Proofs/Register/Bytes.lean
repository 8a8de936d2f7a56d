import SocPeripherals.Proofs.Bus.Lanes
import Mathlib.Data.Nat.Count

/-!
# A register access is made up of byte accesses

A bus access that begins in a register reaches the bytes of the register from there on, and does
what byte accesses of these do one after the other: a read joins what they give, a write takes each
byte of the bus value to its place, and what either does to the register on the way, it does to
each byte alone.
-/

namespace SocPeripherals

/-- The position of the lowest bit of a byte of a register. -/
theorem toNat_bits {place : Nat} (within : place < 4) :
    (UInt32.ofNat (8 * place)).toNat = 8 * place :=
  UInt32.toNat_ofNat_of_lt' (by change 8 * place < 2 ^ 32; omega)

/-! ## Lanes of consecutive bytes -/

namespace Lane

variable {first count position : Nat}

/-- The lanes of some bytes of a register, one after the other. -/
def span (first count : Nat) : Lane where
  shift := UInt32.ofNat (8 * first)
  mask := ⟨(BitVec.allOnes (8 * count)).setWidth 32 <<< (8 * first)⟩
  exact := false

theorem toNat_shift_span (within : first < 4) (count : Nat) :
    (span first count).shift.toNat = 8 * first :=
  toNat_bits within

theorem getLsbD_mask_span (first count : Nat) (below : position < 32) :
    (span first count).mask.toBitVec.getLsbD position
      = decide (8 * first ≤ position ∧ position < 8 * (first + count)) := by
  have bit : (span first count).mask.toBitVec.getLsbD position
      = (decide (8 * first ≤ position) && decide (position - 8 * first < 8 * count)) := by
    simp [span, below, ← decide_not]
  rw [bit, ← Bool.decide_and, decide_eq_decide]
  omega

/-- The bits of a bus value where some bytes of it go. -/
theorem getLsbD_place_span (within : first < 4) (count : Nat) (value : UInt32)
    (below : position < 32) : ((span first count).place value).toBitVec.getLsbD position
      = (decide (8 * first ≤ position ∧ position < 8 * (first + count)) &&
        value.toBitVec.getLsbD (position - 8 * first)) := by
  have shift := toNat_shift_span within count
  rw [place, UInt32.toBitVec_and, BitVec.getLsbD_and, getLsbD_mask_span first count below,
    Register.getLsbD_shiftLeft _ (by omega) below, shift]
  grind

/-- The bits of some bytes of a register value, moved down. -/
theorem getLsbD_extract_span (within : first < 4) (count : Nat) (value : UInt32)
    (position : Nat) : ((span first count).extract value).toBitVec.getLsbD position
      = (decide (position < 8 * count) && value.toBitVec.getLsbD (8 * first + position)) := by
  have shift := toNat_shift_span within count
  rw [extract, Register.getLsbD_shiftRight _ (by omega), shift, UInt32.toBitVec_and,
    BitVec.getLsbD_and]
  by_cases inside : 8 * first + position < 32
  · rw [getLsbD_mask_span first count inside]
    grind
  · rw [BitVec.getLsbD_of_ge _ _ (Nat.not_lt.1 inside), Bool.false_and, Bool.and_false]

theorem mask_span_zero (first : Nat) : (span first 0).mask = 0 := by
  apply eq_of_bits
  intro position below
  rw [getLsbD_mask_span first 0 below]
  simp

theorem mask_span_succ (first count : Nat) :
    (span first (count + 1)).mask = (span first count).mask ||| (span (first + count) 1).mask := by
  apply eq_of_bits
  intro position below
  rw [UInt32.toBitVec_or, BitVec.getLsbD_or, getLsbD_mask_span _ _ below,
    getLsbD_mask_span _ _ below, getLsbD_mask_span _ _ below, ← Bool.decide_or, decide_eq_decide]
  omega

/-- The next byte of a bus value goes after the others. -/
theorem place_span_succ (within : first + count < 4) (value : UInt32) :
    (span first (count + 1)).place value = (span first count).place value |||
      (span (first + count) 1).place (value >>> UInt32.ofNat (8 * count) &&& 0xff) := by
  have shift : (UInt32.ofNat (8 * count)).toNat = 8 * count := toNat_bits (by omega)
  apply eq_of_bits
  intro position below
  have byte : (value >>> UInt32.ofNat (8 * count) &&& 0xff).toBitVec.getLsbD
      (position - 8 * (first + count))
      = (value.toBitVec.getLsbD (8 * count + (position - 8 * (first + count))) &&
        decide (position - 8 * (first + count) < 8)) := by
    rw [UInt32.toBitVec_and, BitVec.getLsbD_and, Register.getLsbD_shiftRight _ (by omega), shift]
    exact congrArg _ (Width.getLsbD_mask .byte _)
  rw [UInt32.toBitVec_or, BitVec.getLsbD_or, getLsbD_place_span (by omega) _ _ below,
    getLsbD_place_span (by omega) _ _ below, getLsbD_place_span within _ _ below, byte]
  by_cases last : 8 * (first + count) ≤ position ∧ position < 8 * (first + count + 1)
  · have source : 8 * count + (position - 8 * (first + count)) = position - 8 * first := by omega
    rw [source]
    grind
  · grind

/-- The next byte of a register value comes after the others. -/
theorem extract_span_succ (within : first + count < 4) (value : UInt32) :
    (span first (count + 1)).extract value = (span first count).extract value |||
      (span (first + count) 1).extract value <<< UInt32.ofNat (8 * count) := by
  have shift : (UInt32.ofNat (8 * count)).toNat = 8 * count := toNat_bits (by omega)
  apply eq_of_bits
  intro position below
  rw [UInt32.toBitVec_or, BitVec.getLsbD_or, Register.getLsbD_shiftLeft _ (by omega) below, shift,
    getLsbD_extract_span (by omega), getLsbD_extract_span (by omega), getLsbD_extract_span within]
  by_cases last : 8 * count ≤ position
  · have source : 8 * (first + count) + (position - 8 * count) = 8 * first + position := by omega
    rw [source]
    grind
  · grind

/-- Bits that are cleared in the bytes before are not among those of the next byte. -/
theorem extract_next (within : first + count < 4) (value bits : UInt32) :
    (span (first + count) 1).extract (value &&& ~~~(bits &&& (span first count).mask))
      = (span (first + count) 1).extract value := by
  apply eq_of_bits
  intro position below
  rw [getLsbD_extract_span within, getLsbD_extract_span within]
  by_cases inside : position < 8
  · have below : 8 * (first + count) + position < 32 := by omega
    simp only [UInt32.toBitVec_and, UInt32.toBitVec_not, BitVec.getLsbD_and, BitVec.getLsbD_not,
      getLsbD_mask_span _ _ below]
    grind
  · rw [decide_eq_false (by omega), Bool.false_and, Bool.false_and]

theorem clear_span_succ (first count : Nat) (value bits : UInt32) :
    value &&& ~~~(bits &&& (span first (count + 1)).mask)
      = value &&& ~~~(bits &&& (span first count).mask)
        &&& ~~~(bits &&& (span (first + count) 1).mask) := by
  rw [mask_span_succ]
  simp only [UInt32.and_comm bits, or_and_distrib, and_not_or]

theorem merge_span_succ (within : first + count < 4) (old value : UInt32) :
    (span first (count + 1)).merge old value = (span (first + count) 1).merge
      ((span first count).merge old value) (value >>> UInt32.ofNat (8 * count) &&& 0xff) := by
  have apart : (span first count).place value &&& ~~~(span (first + count) 1).mask
      = (span first count).place value := by
    apply eq_of_bits
    intro position below
    rw [UInt32.toBitVec_and, BitVec.getLsbD_and, UInt32.toBitVec_not, BitVec.getLsbD_not,
      getLsbD_mask_span _ _ below, getLsbD_place_span (by omega) _ _ below]
    grind
  rw [merge, mask_span_succ, and_not_or, place_span_succ within, ← UInt32.or_assoc]
  simp only [merge, or_and_distrib, apart]

/-- Only the bytes of a bus value that are placed matter. -/
theorem place_span_congr (within : first < 4) {value other : UInt32} (same : ∀ position < 8 * count,
      value.toBitVec.getLsbD position = other.toBitVec.getLsbD position) :
    (span first count).place value = (span first count).place other := by
  apply eq_of_bits
  intro position below
  rw [getLsbD_place_span within _ _ below, getLsbD_place_span within _ _ below]
  grind

end Lane

/-! ## Bytes within reach -/

namespace Register

variable {register : Register} {width : Width} {address : UInt32} {place : Nat}

/-- The register's bytes lie below the end of the address space. -/
def IsWithin (register : Register) : Prop :=
  register.offset.toNat + register.width.bytes.toNat ≤ 2 ^ 32

/-- How many of the bytes that an access moves are bytes of the register. -/
def reached (register : Register) (width : Width) (address : UInt32) : Nat :=
  Nat.count (fun place => register.Contains (address + UInt32.ofNat place)) width.bytes.toNat

theorem contains_iff : register.Contains address ↔ register.offset.toNat ≤ address.toNat ∧
    address.toNat < register.offset.toNat + register.width.bytes.toNat := by
  rw [Contains, UInt32.le_iff_toNat_le]
  refine and_congr_right fun le => ?_
  rw [UInt32.lt_iff_toNat_lt, UInt32.toNat_sub_of_le _ _ (UInt32.le_iff_toNat_le.2 le)]
  omega

theorem toNat_add_place (within : register.IsWithin)
    (inside : address.toNat + place < register.offset.toNat + register.width.bytes.toNat) :
    (address + UInt32.ofNat place).toNat = address.toNat + place := by
  have top : register.offset.toNat + register.width.bytes.toNat ≤ 2 ^ 32 := within
  rw [UInt32.toNat_add, UInt32.toNat_ofNat', Nat.add_mod_mod]
  exact Nat.mod_eq_of_lt (by omega)

/-- The bytes of the register end where it ends; addresses that start over at 0 are not among
them. -/
theorem contains_add_iff (within : register.IsWithin) (contains : register.Contains address)
    (near : place < 4) : register.Contains (address + UInt32.ofNat place) ↔
      address.toNat + place < register.offset.toNat + register.width.bytes.toNat := by
  have top : register.offset.toNat + register.width.bytes.toNat ≤ 2 ^ 32 := within
  have size := register.width.toNat_bytes_le
  obtain ⟨le, lt⟩ := contains_iff.1 contains
  constructor
  · intro there
    rw [contains_iff, UInt32.toNat_add, UInt32.toNat_ofNat', Nat.add_mod_mod] at there
    omega
  · intro inside
    rw [contains_iff, toNat_add_place within inside]
    omega

theorem reached_eq (within : register.IsWithin) (contains : register.Contains address)
    (width : Width) : register.reached width address = min width.bytes.toNat
      (register.offset.toNat + register.width.bytes.toNat - address.toNat) := by
  have few := width.toNat_bytes_le
  unfold reached
  generalize width.bytes.toNat = moved at few ⊢
  induction moved with
  | zero => rfl
  | succ count ih =>
      rw [Nat.count_succ, ih (Nat.le_of_succ_le few)]
      have next := contains_add_iff within contains (Nat.lt_of_succ_le few)
      split
      next there =>
        have := next.1 there
        omega
      next beyond =>
        have := next.not.1 beyond
        omega

theorem reached_pos (within : register.IsWithin) (contains : register.Contains address)
    (valid : width ≠ .invalid) : 0 < register.reached width address := by
  have moves : 0 < width.bytes.toNat := by
    cases width <;> first | decide | contradiction
  obtain ⟨-, lt⟩ := contains_iff.1 contains
  rw [reached_eq within contains]
  omega

theorem add_reached_le (within : register.IsWithin) (contains : register.Contains address)
    (width : Width) : address.toNat + register.reached width address
      ≤ register.offset.toNat + register.width.bytes.toNat := by
  obtain ⟨-, lt⟩ := contains_iff.1 contains
  rw [reached_eq within contains]
  omega

/-- The lanes of an access are those of the bytes that it reaches. -/
theorem lane_eq_span (within : register.IsWithin) (contains : register.Contains address)
    (width : Width) :
    { register.lane width address with exact := false }
      = Lane.span (address.toNat - register.offset.toNat) (register.reached width address) := by
  obtain ⟨shift, near⟩ := toNat_shift_lane contains width
  obtain ⟨le, lt⟩ := contains_iff.1 contains
  let span := Lane.span (address.toNat - register.offset.toNat) (register.reached width address)
  have same : (register.lane width address).shift = span.shift := by
    rw [← UInt32.toNat_inj, shift, Lane.toNat_shift_span near]
  have covered : (register.lane width address).mask = span.mask := by
    apply eq_of_bits
    intro position below
    rw [getLsbD_mask_lane_at contains, Lane.getLsbD_mask_span _ _ below, decide_eq_decide,
      reached_eq within contains, Covers, and_iff_right contains]
    omega
  dsimp only
  rw [same, covered]
  rfl

end Register

/-- No two registers of the table share an address, and none lies beyond the address space. -/
structure IsDisjoint (table : List Register) : Prop where
  within : ∀ register ∈ table, register.IsWithin
  apart : table.Pairwise fun first second =>
    ∀ address, ¬(first.Contains address ∧ second.Contains address)

namespace Selection

variable {table : List Register} {width : Width} {address : UInt32} {index : Fin table.length}

/-- An address of a register selects it. -/
theorem find?_of_disjoint (disjoint : IsDisjoint table) (valid : width ≠ .invalid)
    (contains : (table.get index).Contains address) :
    find? table width address = some ⟨index, (table.get index).lane width address⟩ := by
  have first : table.findFinIdx? (fun register => register.Contains address) = some index := by
    refine List.findFinIdx?_eq_some_iff.2 ⟨decide_eq_true contains, fun earlier before there => ?_⟩
    have apart := List.pairwise_iff_getElem.1 disjoint.apart earlier index earlier.isLt index.isLt
      before address
    exact apart ⟨of_decide_eq_true there, contains⟩
  rw [find?, if_neg valid, first]
  rfl

end Selection

namespace Bank

variable {table : List Register} {bank after : Bank table} {index : Fin table.length}
  {width : Width} {address : UInt32} {first count : Nat}

/-! ## Bytes after bytes -/

/-- What byte reads at consecutive addresses give, joined lowest first. -/
def readBytes? (bank : Bank table) (address : UInt32) : Nat → Option (UInt32 × Bank table)
  | 0 => some (0, bank)
  | count + 1 => do
      let (low, middle) ← readBytes? bank address count
      let (byte, after) ← middle.readAt? .byte (address + UInt32.ofNat count)
      return (low ||| byte <<< UInt32.ofNat (8 * count), after)

/-- Byte writes of the bytes of a value to consecutive addresses, lowest first, with what each did
to which register. -/
def writeBytes? (bank : Bank table) (address value : UInt32) :
    Nat → Option (List (Fin table.length × Change) × Bank table)
  | 0 => some ([], bank)
  | count + 1 => do
      let (reports, middle) ← writeBytes? bank address value count
      let (index, change, after) ← middle.writeAt? .byte (address + UInt32.ofNat count)
        (value >>> UInt32.ofNat (8 * count) &&& 0xff)
      return (reports ++ [(index, change)], after)

/-- The bank after a step is the bank before, but for a value of one register. -/
structure DiffersAt (index : Fin table.length) (bank after : Bank table) : Prop where
  others : ∀ other, other ≠ index → after.get other = bank.get other
  resets : after.resets = bank.resets

theorem differsAt_read (bank : Bank table) (selection : Selection table) :
    DiffersAt selection.index bank (bank.read selection).2 := by
  refine ⟨fun other distinct => ?_, bank.resets_read selection⟩
  unfold read
  split
  next => rfl
  next => exact get_put_of_ne bank distinct.symm _
  all_goals rfl

theorem differsAt_write (bank : Bank table) (selection : Selection table) (value : UInt32) :
    DiffersAt selection.index bank (bank.write selection value).2 :=
  ⟨fun _ distinct => get_write_of_ne bank distinct.symm value, bank.resets_write selection value⟩

theorem read_span_zero (bank : Bank table) (index : Fin table.length) (first : Nat) :
    bank.read ⟨index, .span first 0⟩ = (0, bank) := by
  have none (value : UInt32) : (Lane.span first 0).extract value = 0 := by
    rw [Lane.extract, Lane.mask_span_zero, UInt32.and_zero, UInt32.zero_shiftRight]
  unfold read
  simp only [none, Lane.mask_span_zero, UInt32.and_zero, UInt32.not_zero, UInt32.and_neg_one,
    put_get]
  split <;> rfl

theorem write_span_zero (bank : Bank table) (index : Fin table.length) (first : Nat)
    (value : UInt32) : (bank.write ⟨index, .span first 0⟩ value).2 = bank := by
  have none : (Lane.span first 0).place value = 0 := by
    rw [Lane.place, Lane.mask_span_zero, UInt32.and_zero]
  unfold write
  simp only [Lane.merge, none, Lane.mask_span_zero, UInt32.not_zero, UInt32.and_neg_one,
    UInt32.or_zero]
  split <;> exact put_get bank index

/-- A bus write reports what the register held before and after it. -/
theorem fst_write (bank : Bank table) (selection : Selection table) (value : UInt32) :
    (bank.write selection value).1
      = ⟨bank.get selection.index, (bank.write selection value).2.get selection.index⟩ := by
  rw [write, get_put_self]

/-- A read of one more byte is a byte read after the others. -/
theorem read_span_succ (bank : Bank table) (index : Fin table.length) (within : first + count < 4) :
    bank.read ⟨index, .span first (count + 1)⟩ =
      ((bank.read ⟨index, .span first count⟩).1 |||
        ((bank.read ⟨index, .span first count⟩).2.read ⟨index, .span (first + count) 1⟩).1
          <<< UInt32.ofNat (8 * count),
        ((bank.read ⟨index, .span first count⟩).2.read ⟨index, .span (first + count) 1⟩).2) := by
  cases access : (table.get index).access with
  | writeOnly =>
      simp only [read, Selection.register, access, UInt32.zero_shiftLeft, UInt32.or_zero]
  | clearOnRead bits =>
      simp only [read, Selection.register, access, get_put_self, put_put,
        Lane.clear_span_succ first count, Lane.extract_next within,
        Lane.extract_span_succ within]
  | readWrite | readOnly | writeOneToClear =>
      simp only [read, Selection.register, access, Lane.extract_span_succ within]

/-- A write of one more byte is a byte write after the others. -/
theorem write_span_succ (bank : Bank table) (index : Fin table.length) (value : UInt32)
    (within : first + count < 4) :
    (bank.write ⟨index, .span first (count + 1)⟩ value).2 =
      ((bank.write ⟨index, .span first count⟩ value).2.write ⟨index, .span (first + count) 1⟩
        (value >>> UInt32.ofNat (8 * count) &&& 0xff)).2 := by
  cases access : (table.get index).access with
  | readWrite | writeOnly =>
      simp only [write, Selection.register, access, get_put_self, put_put,
        Lane.merge_span_succ within]
  | writeOneToClear =>
      simp only [write, Selection.register, access, get_put_self, put_put,
        Lane.place_span_succ within, and_not_or]
  | readOnly | clearOnRead => simp only [write, Selection.register, access, get_put_self, put_put]

/-- A bus read at an address of a register is one of the bytes that it reaches. -/
theorem readAt?_of_contains (disjoint : IsDisjoint table) (valid : width ≠ .invalid)
    (contains : (table.get index).Contains address) (bank : Bank table) :
    bank.readAt? width address = some (bank.read ⟨index, .span
      (address.toNat - (table.get index).offset.toNat)
      ((table.get index).reached width address)⟩) := by
  have within := disjoint.within _ (List.get_mem table index)
  rw [readAt?, Selection.find?_of_disjoint disjoint valid contains, Option.map_some,
    ← Register.lane_eq_span within contains]
  rfl

theorem writeAt?_of_contains (disjoint : IsDisjoint table) (valid : width ≠ .invalid)
    (contains : (table.get index).Contains address) (bank : Bank table) (value : UInt32) :
    bank.writeAt? width address value = some (index, bank.write ⟨index, .span
      (address.toNat - (table.get index).offset.toNat)
      ((table.get index).reached width address)⟩ value) := by
  have within := disjoint.within _ (List.get_mem table index)
  rw [writeAt?, Selection.find?_of_disjoint disjoint valid contains, Option.map_some,
    ← Register.lane_eq_span within contains]
  rfl

theorem byte_valid : Width.byte ≠ .invalid := by decide

/-- The byte at a place further up in the register. -/
theorem span_byte (disjoint : IsDisjoint table) (contains : (table.get index).Contains address)
    (inside : address.toNat + count
      < (table.get index).offset.toNat + (table.get index).width.bytes.toNat) :
    (table.get index).Contains (address + UInt32.ofNat count) ∧
    (address + UInt32.ofNat count).toNat - (table.get index).offset.toNat
      = address.toNat - (table.get index).offset.toNat + count ∧
    (table.get index).reached .byte (address + UInt32.ofNat count) = 1 := by
  have within := disjoint.within _ (List.get_mem table index)
  have moved := Register.toNat_add_place within inside
  obtain ⟨le, -⟩ := Register.contains_iff.1 contains
  have there : (table.get index).Contains (address + UInt32.ofNat count) := by
    rw [Register.contains_iff, moved]
    omega
  refine ⟨there, by omega, ?_⟩
  rw [Register.reached_eq within there, moved]
  change min 1 _ = 1
  omega

/-- Byte reads of the bytes of a register from an address on are a read of their lanes. -/
theorem readBytes?_eq (disjoint : IsDisjoint table)
    (contains : (table.get index).Contains address) (bank : Bank table)
    (inside : address.toNat + count
      ≤ (table.get index).offset.toNat + (table.get index).width.bytes.toNat) :
    bank.readBytes? address count
      = some (bank.read ⟨index, .span (address.toNat - (table.get index).offset.toNat) count⟩) := by
  have size := (table.get index).width.toNat_bytes_le
  obtain ⟨le, -⟩ := Register.contains_iff.1 contains
  induction count with
  | zero => rw [read_span_zero]; rfl
  | succ count ih =>
      obtain ⟨there, place, one⟩ := span_byte disjoint contains (Nat.lt_of_succ_le inside)
      have next := readAt?_of_contains disjoint byte_valid there
      rw [place, one] at next
      rw [readBytes?, ih (Nat.le_of_succ_le inside), read_span_succ bank index (by omega)]
      simp only [Option.bind_eq_bind, Option.bind_some, next]
      rfl

/-- Byte writes of the bytes of a value to those of a register from an address on are a write to
their lanes, and each reports what it makes of what the ones before it have made. -/
theorem writeBytes?_eq (disjoint : IsDisjoint table)
    (contains : (table.get index).Contains address) (bank : Bank table) (value : UInt32)
    (inside : address.toNat + count
      ≤ (table.get index).offset.toNat + (table.get index).width.bytes.toNat) :
    let upTo (count : Nat) := (bank.write
      ⟨index, .span (address.toNat - (table.get index).offset.toNat) count⟩ value).2
    bank.writeBytes? address value count = some
      ((List.range count).map fun place =>
        (index, ⟨(upTo place).get index, (upTo (place + 1)).get index⟩), upTo count) := by
  intro upTo
  have size := (table.get index).width.toNat_bytes_le
  obtain ⟨le, -⟩ := Register.contains_iff.1 contains
  induction count with
  | zero =>
      have none : upTo 0 = bank := write_span_zero bank index _ value
      rw [none]
      rfl
  | succ count ih =>
      obtain ⟨there, place, one⟩ := span_byte disjoint contains (Nat.lt_of_succ_le inside)
      have next := writeAt?_of_contains disjoint byte_valid there
      rw [place, one] at next
      have joined : upTo (count + 1) = ((upTo count).write
          ⟨index, .span (address.toNat - (table.get index).offset.toNat + count) 1⟩
          (value >>> UInt32.ofNat (8 * count) &&& 0xff)).2 :=
        write_span_succ bank index value (by omega)
      rw [writeBytes?, ih (Nat.le_of_succ_le inside), List.range_succ, List.map_append]
      simp only [Option.bind_eq_bind, Option.bind_some, next, fst_write, ← joined]
      rfl

/-- An access that reaches some bytes of a register does what byte accesses of these do, one after
the other. It does nothing to the other registers, and of a bus value only these bytes matter. -/
structure IsBytewise (bank : Bank table) (width : Width) (address : UInt32)
    (index : Fin table.length) (count : Nat) : Prop where
  reads : ∃ value after, bank.readAt? width address = some (value, after) ∧
    bank.readBytes? address count = some (value, after) ∧ DiffersAt index bank after
  writes : ∀ value, ∃ change reports after,
    bank.writeAt? width address value = some (index, change, after) ∧
    bank.writeBytes? address value count = some (reports, after) ∧
    (∀ report ∈ reports, report.1 = index) ∧
    reports.head?.map (fun report => report.2.old) = some change.old ∧
    reports.getLast?.map (fun report => report.2.new) = some change.new ∧
    DiffersAt index bank after
  surplus : ∀ value other : UInt32,
    (∀ position < 8 * count,
      value.toBitVec.getLsbD position = other.toBitVec.getLsbD position) →
    bank.writeAt? width address value = bank.writeAt? width address other

/-- Where registers are disjoint, an access that begins in one of them is made up of accesses to the
bytes of that register which it reaches. -/
theorem isBytewise_of_contains (disjoint : IsDisjoint table) (valid : width ≠ .invalid)
    (contains : (table.get index).Contains address) (bank : Bank table) :
    IsBytewise bank width address index ((table.get index).reached width address) := by
  have within := disjoint.within _ (List.get_mem table index)
  have inside := Register.add_reached_le within contains width
  have positive := Register.reached_pos within contains valid
  have skip := (Register.toNat_shift_lane contains width).2
  let lanes : Selection table := ⟨index, .span (address.toNat - (table.get index).offset.toNat)
    ((table.get index).reached width address)⟩
  constructor
  case reads =>
    exact ⟨(bank.read lanes).1, (bank.read lanes).2,
      readAt?_of_contains disjoint valid contains bank,
      readBytes?_eq disjoint contains bank inside, differsAt_read bank lanes⟩
  case writes =>
    intro value
    refine ⟨(bank.write lanes value).1, _, (bank.write lanes value).2,
      writeAt?_of_contains disjoint valid contains bank value,
      writeBytes?_eq disjoint contains bank value inside, ?_, ?_, ?_,
      differsAt_write bank lanes value⟩
    · intro report listed
      obtain ⟨place, -, rfl⟩ := List.mem_map.1 listed
      rfl
    · rw [List.head?_map, List.head?_range, if_neg positive.ne', fst_write]
      simp [write_span_zero, lanes]
    · rw [List.getLast?_map, List.getLast?_range, if_neg positive.ne', fst_write]
      have last : (table.get index).reached width address - 1 + 1
          = (table.get index).reached width address :=
        Nat.sub_add_cancel positive
      simp only [Option.map_some, last, lanes]
  case surplus =>
    intro value other same
    have placed := Lane.place_span_congr skip same
    rw [writeAt?_of_contains disjoint valid contains, writeAt?_of_contains disjoint valid contains]
    simp only [write, Lane.merge, placed]

/-- A word at the second byte of a register that is cleared on read, next to one that is not. -/
theorem isBytewise_of_overhang :
    let table : List Register := [⟨"EVENTS", 0, .word, 0x12345678, .clearOnRead 0x0ff00ff0⟩,
      ⟨"FLAGS", 4, .halfWord, 0xffff, .writeOneToClear⟩]
    IsDisjoint table ∧ (table.get 0).Contains 1 ∧ (table.get 0).reached .word 1 = 3 ∧
      IsBytewise (initial table) .word 1 0 3 := by
  intro table
  have disjoint : IsDisjoint table := by
    constructor
    · simp [table, Register.IsWithin, Width.bytes]
    · simp [table, Register.contains_iff, Width.bytes]
      omega
  have contains : (table.get 0).Contains 1 := by decide
  have reached : (table.get 0).reached .word 1 = 3 := by decide
  have valid : Width.word ≠ .invalid := by decide
  have bytewise := isBytewise_of_contains disjoint valid contains (initial table)
  rw [reached] at bytewise
  exact ⟨disjoint, contains, reached, bytewise⟩

end Bank

end SocPeripherals
