import SocPeripherals.Proofs.Consistency.Devices
import SocPeripherals.Proofs.Faults.Devices

/-!
# Accesses to a serial interface

Two registers of an interface react to an access of their lowest byte alone: a read of the receive
register takes a received byte, a write of the transmit register sends one. The status register
answers in whatever lanes it is read. An interface is used by commands, each of which comes to its
end.
-/

namespace SocPeripherals

/-! ## The lowest byte -/

namespace Register

variable {register : Register} {width : Width} {address : UInt32}

/-- The access covers the lowest byte of the register. -/
def IsLowest (register : Register) (width : Width) (address : UInt32) : Prop :=
  width ≠ .invalid ∧ address = register.offset

instance (register : Register) (width : Width) (address : UInt32) :
    Decidable (register.IsLowest width address) :=
  inferInstanceAs (Decidable (_ ∧ _))

theorem skip_lt {skip : UInt32} (near : skip < register.width.bytes) : skip.toNat < 4 := by
  have four : skip < 4 := UInt32.lt_of_lt_of_le near (by cases register.width <;> decide)
  exact UInt32.lt_iff_toNat_lt.1 four

theorem skip_cases {skip : UInt32} (near : skip < register.width.bytes) :
    skip = 0 ∨ skip = 1 ∨ skip = 2 ∨ skip = 3 := by
  have four := skip_lt near
  simp only [← UInt32.toNat_inj]
  change skip.toNat = 0 ∨ skip.toNat = 1 ∨ skip.toNat = 2 ∨ skip.toNat = 3
  omega

/-- An access that begins in a register covers its lowest byte if it begins there, and nothing of
that byte if it begins further up. -/
theorem mask_lane (contains : register.Contains address) (valid : width ≠ .invalid) :
    (register.lane width address).mask &&& 0xff
      = if address = register.offset then 0xff else 0 := by
  have near := contains.2
  have here : address = register.offset ↔ address - register.offset = 0 := by grind
  simp only [here, lane]
  generalize address - register.offset = skip at near
  obtain rfl | rfl | rfl | rfl := skip_cases near <;> revert near valid <;>
    cases register.width <;> cases width <;> decide

theorem shift_lane (register : Register) (width : Width) :
    (register.lane width register.offset).shift = 0 := by
  simp [lane]

end Register

namespace Lane

variable {lane : Lane}

/-- The lanes begin with the lowest byte. -/
structure IsLowest (lane : Lane) : Prop where
  shift : lane.shift = 0
  mask : lane.mask &&& 0xff = 0xff

theorem extract_or (lane : Lane) (first second : UInt32) :
    lane.extract (first ||| second) = lane.extract first ||| lane.extract second := by
  simp only [extract, ← UInt32.toBitVec_inj, UInt32.toBitVec_shiftRight, UInt32.toBitVec_and,
    UInt32.toBitVec_or, BitVec.and_or_distrib_right, BitVec.ushiftRight_eq',
    BitVec.ushiftRight_or_distrib]

/-- Bits of the lowest byte are seen where they are. -/
theorem IsLowest.extract_and (lowest : lane.IsLowest) (value : UInt32) {bits : UInt32}
    (low : 0xff &&& bits = bits) : lane.extract value &&& bits = value &&& bits := by
  have inside : lane.mask &&& bits = bits := by rw [← low, ← UInt32.and_assoc, lowest.mask]
  rw [extract, lowest.shift, UInt32.shiftRight_zero, UInt32.and_assoc, inside]

/-- A byte is seen as it is. -/
theorem IsLowest.extract_byte (lowest : lane.IsLowest) (byte : UInt8) :
    lane.extract byte.toUInt32 = byte.toUInt32 := by
  have short : byte.toUInt32 &&& 0xff = byte.toUInt32 := by
    rw [← UInt32.toNat_inj, UInt32.toNat_and, UInt8.toNat_toUInt32]
    exact Nat.and_two_pow_sub_one_of_lt_two_pow byte.toNat_lt
  rw [extract, lowest.shift, UInt32.shiftRight_zero, ← short, UInt32.and_assoc,
    UInt32.and_comm 0xff, lowest.mask]

/-- Bits that the lanes leave out are not seen. -/
theorem extract_without (value : UInt32) {bits : UInt32} (outside : lane.mask &&& bits = 0) :
    lane.extract (value &&& ~~~bits) = lane.extract value := by
  rw [extract, extract, UInt32.and_assoc, UInt32.and_comm (~~~bits),
    and_not_of_and_eq_zero outside]

end Lane

namespace Register

variable {register : Register} {width : Width} {address : UInt32}

theorem IsLowest.contains (covers : register.IsLowest width address)
    (sized : 0 < register.width.bytes) : register.Contains address := by
  rw [covers.2]
  refine ⟨UInt32.le_refl _, ?_⟩
  rw [UInt32.sub_self]
  exact sized

theorem IsLowest.lane (covers : register.IsLowest width address)
    (sized : 0 < register.width.bytes) : (register.lane width address).IsLowest := by
  constructor
  · rw [covers.2]
    exact shift_lane register width
  · exact (mask_lane (covers.contains sized) covers.1).trans (if_pos covers.2)

end Register

namespace Selection

variable {table : List Register} {width : Width} {address : UInt32} {selection : Selection table}

theorem ne_invalid_of_find? (found : find? table width address = some selection) :
    width ≠ .invalid := by
  rintro rfl
  simp [find?] at found

/-- The lanes touch the lowest byte if the access begins with it. -/
theorem touches_lowest_iff (found : find? table width address = some selection) :
    selection.lane.touches 0xff = true ↔ selection.register.IsLowest width address := by
  have valid := ne_invalid_of_find? found
  obtain ⟨contains, lanes⟩ := contains_of_find? found
  rw [Lane.touches, bne_iff_ne, lanes, Register.mask_lane contains valid]
  by_cases here : address = selection.register.offset
  · rw [if_pos here]
    exact iff_of_true (by decide) ⟨valid, here⟩
  · rw [if_neg here]
    exact iff_of_false (not_not.2 rfl) fun covers => here covers.2

/-- A register is not empty, and an access that begins in it selects it. -/
def StandsApart (table : List Register) (index : Fin table.length) : Prop :=
  0 < (table.get index).width.bytes ∧
    ∀ width ∈ Width.valid, ∀ skip < 4, UInt32.ofNat skip < (table.get index).width.bytes →
      (find? table width ((table.get index).offset + UInt32.ofNat skip)).map Selection.index
        = some index

instance (table : List Register) (index : Fin table.length) :
    Decidable (StandsApart table index) :=
  inferInstanceAs (Decidable (_ ∧ _))

/-- No register is empty or reaches into another one. -/
def IsApart (table : List Register) : Prop := ∀ index, StandsApart table index

instance (table : List Register) : Decidable (IsApart table) := Nat.decidableForallFin _

variable {index : Fin table.length}

theorem find?_of_contains (apart : IsApart table) (valid : width ≠ .invalid)
    (contains : (table.get index).Contains address) :
    ∃ selection, find? table width address = some selection ∧ selection.index = index := by
  obtain ⟨-, near⟩ := contains
  have there : address = (table.get index).offset + (address - (table.get index).offset) := by
    grind
  have selects := (apart index).2 width (Width.mem_valid_iff.2 valid)
    (address - (table.get index).offset).toNat (Register.skip_lt near)
  rw [UInt32.ofNat_toNat, ← there] at selects
  exact Option.map_eq_some_iff.1 (selects near)

theorem find?_of_lowest (apart : IsApart table)
    (covers : (table.get index).IsLowest width address) :
    ∃ selection, find? table width address = some selection ∧ selection.index = index :=
  find?_of_contains apart covers.1 (covers.contains (apart index).1)

/-- An access that selects no register covers the lowest byte of none. -/
theorem not_isLowest_of_missed (apart : IsApart table) (missed : find? table width address = none) :
    ¬(table.get index).IsLowest width address := by
  intro covers
  obtain ⟨selection, found, -⟩ := find?_of_lowest apart covers
  exact absurd (missed.symm.trans found) nofun

/-- The access covers the lowest byte of a register if it selects the register and touches that
byte. -/
theorem isLowest_iff (apart : IsApart table)
    (found : find? table width address = some selection) :
    (table.get index).IsLowest width address ↔
      selection.index = index ∧ selection.lane.touches 0xff = true := by
  have touches := touches_lowest_iff found
  constructor
  · intro covers
    obtain ⟨other, foundOther, rfl⟩ := find?_of_lowest apart covers
    cases found.symm.trans foundOther
    exact ⟨rfl, touches.2 covers⟩
  · rintro ⟨rfl, touched⟩
    exact touches.1 touched

end Selection

namespace Uart

open Selection (find?)

variable {uart after : Uart} {clock later : Clock} {width : Width} {address : UInt32}
  {selection : Selection registers} {index : Fin registers.length}

theorem registers_apart : Selection.IsApart registers := by decide

/-! ## What a read answers -/

/-- What a word of the status register shows of an interface. -/
structure Displays (uart : Uart) (word : UInt32) : Prop where
  ready : word &&& 0x1 ≠ 0 ↔ uart.received ≠ []
  count : ((word &&& 0x1f00) >>> 8).toNat = min uart.received.length 31
  overrun : word &&& overrunBit ≠ 0 ↔ uart.bank.get statusIndex &&& overrunBit ≠ 0
  idle : word &&& 0x20 = 0 ↔ uart.isTransmitting = true

/-- The bits of the status that are not stored. -/
theorem live_bits : ∀ empty sending : Bool, ∀ count : Fin 32,
    let ready : UInt32 := if empty then 0 else 0x1
    let idle : UInt32 := if sending then 0 else 0x20
    let live := ready ||| idle ||| (UInt32.ofNat count.val <<< 8)
    (live &&& 0x1 ≠ 0 ↔ ¬empty) ∧ ((live &&& 0x1f00) >>> 8).toNat = count.val ∧
      live &&& (overrunBit ||| breakBit) = 0 ∧ (live &&& 0x20 = 0 ↔ sending) := by
  decide

theorem displays_status (consistent : uart.IsConsistent) :
    uart.Displays (uart.bank.get statusIndex ||| uart.liveStatus) := by
  have unstored {bits : UInt32} (within : ~~~(overrunBit ||| breakBit) &&& bits = bits) :
      uart.bank.get statusIndex &&& bits = 0 :=
    and_eq_zero_of_within consistent.status within
  have below : min uart.received.length 31 < 32 := Nat.lt_succ_of_le (Nat.min_le_right _ _)
  obtain ⟨ready, count, none, idle⟩ :=
    live_bits uart.received.isEmpty uart.isTransmitting ⟨_, below⟩
  have overrun : uart.liveStatus &&& overrunBit = 0 := and_eq_zero_of_within none (by decide)
  constructor
  · rw [or_and_distrib, unstored (by decide), UInt32.zero_or]
    exact ready.trans (not_congr List.isEmpty_iff)
  · rw [or_and_distrib, unstored (by decide), UInt32.zero_or]
    exact count
  · rw [or_and_distrib, overrun, UInt32.or_zero]
  · rw [or_and_distrib, unstored (by decide), UInt32.zero_or]
    exact idle

/-- A read of the status register answers with the lanes of the stored bits and the others. -/
theorem read_status_eq (uart : Uart) (valid : width ≠ .invalid)
    (contains : (registers.get statusIndex).Contains address) :
    (uart.read width address).value.1 = ((registers.get statusIndex).lane width address).extract
      (uart.bank.get statusIndex ||| uart.liveStatus) := by
  obtain ⟨selection, found, status⟩ :=
    Selection.find?_of_contains registers_apart valid contains
  obtain ⟨index, lane⟩ := selection
  cases status
  have lanes : lane = (registers.get statusIndex).lane width address :=
    (Selection.contains_of_find? found).2
  unfold read
  rw [Traced.value_bind, Selection.value_noted, found, Lane.extract_or, ← lanes]
  rfl

/-- A read of the status register answers with the lanes of a word that shows the interface. -/
theorem read_status (consistent : uart.IsConsistent) (valid : width ≠ .invalid)
    (contains : (registers.get statusIndex).Contains address) :
    ∃ word, uart.Displays word ∧ (uart.read width address).value.1
      = ((registers.get statusIndex).lane width address).extract word :=
  ⟨_, displays_status consistent, read_status_eq uart valid contains⟩

/-- A read of the lowest byte of the status register shows the stored bits as they are. -/
theorem read_stored (uart : Uart)
    (covers : (registers.get statusIndex).IsLowest width address) {bits : UInt32}
    (stored : (overrunBit ||| breakBit) &&& bits = bits) :
    (uart.read width address).value.1 &&& bits = uart.bank.get statusIndex &&& bits := by
  have below : min uart.received.length 31 < 32 := Nat.lt_succ_of_le (Nat.min_le_right _ _)
  obtain ⟨-, -, none, -⟩ := live_bits uart.received.isEmpty uart.isTransmitting ⟨_, below⟩
  have live : uart.liveStatus &&& bits = 0 := and_eq_zero_of_within none stored
  have low : 0xff &&& bits = bits := by
    rw [← stored, ← UInt32.and_assoc]
    rfl
  rw [read_status_eq uart covers.1 (covers.contains (by decide)),
    (covers.lane (by decide)).extract_and _ low, or_and_distrib, live, UInt32.or_zero]

/-- The lowest byte of the receive register answers with the oldest received byte. -/
theorem read_receive (covers : (registers.get receiveIndex).IsLowest width address) :
    (uart.read width address).value.1 = (uart.received.headD 0).toUInt32 := by
  obtain ⟨selection, found, receive⟩ := Selection.find?_of_lowest registers_apart covers
  have touches : selection.lane.touches dataBits = true :=
    ((Selection.isLowest_iff registers_apart found).1 covers).2
  have answer : (uart.read width address).value.1
      = selection.lane.extract (uart.received.headD 0).toUInt32 := by
    unfold read
    rw [Traced.value_bind, Selection.value_noted, found]
    dsimp only
    rw [if_pos receive, if_pos touches, takeReceived]
    cases uart.received <;> rfl
  have lanes : selection.lane = (registers.get receiveIndex).lane width address := by
    rw [← receive]
    exact (Selection.contains_of_find? found).2
  rw [answer, lanes]
  exact (covers.lane (by decide)).extract_byte _

/-! ## Commands -/

/-- What can be done to an interface. -/
inductive Command where
  | read (width : Width) (address : UInt32)
  | write (width : Width) (address value : UInt32)
  | receive (byte : UInt8)
  | setLine (high : Bool)
  | poll
  | reset
deriving DecidableEq, Repr

/-- Carries out a command. -/
def perform (uart : Uart) (clock : Clock) : Command → Run Signal (Uart × Clock)
  | .read width address => do
      let (_, uart) ← uart.read width address
      return (uart, clock)
  | .write width address value => uart.write clock width address value
  | .receive byte => do return (← uart.receive byte, clock)
  | .setLine high => uart.setLine clock high
  | .poll => do return (← uart.poll clock, clock)
  | .reset => pure (uart.reset clock)

theorem perform_does {command : Command}
    (done : (uart.perform clock command).outcome = .ok (after, later)) :
    Does (fun _ => False) uart clock after later := by
  cases command with
  | read width address => cases done; exact .read width address
  | write width address value => exact .write width address value done
  | receive byte => cases done; exact .receive byte
  | setLine high => exact .setLine high done
  | poll => cases done; exact .poll
  | reset => cases done; exact .reset

/-- A transfer that takes no time is never too long. -/
theorem not_isOverlong_zero (signal : Signal) : ¬signal.IsOverlong 0 := by
  have short (count : Nat) : ¬Clock.horizon.toNat ≤ count * (0 : UInt64).toNat := by
    rw [UInt64.toNat_zero, Nat.mul_zero]
    decide
  rcases signal with remark | _ | _ | _
  · cases remark with
    | transferStarted => exact short _
    | _ => exact id
  all_goals exact id

/-- Every command comes to its end. -/
theorem perform_ends (uart : Uart) (clock : Clock) (command : Command) :
    ∃ result, (uart.perform clock command).outcome = .ok result := by
  cases command with
  | write width address value =>
      have fails : (uart.write clock width address value).FailsAtTransfers 0 :=
        write_failsAtTransfers uart clock width address value
      exact fails.ends_iff.2 fun signal _ => not_isOverlong_zero signal
  | setLine high => exact setLine_ok uart clock high
  | _ => exact ⟨_, rfl⟩

end Uart

end SocPeripherals
