import SocPeripherals.Bus.Ram
import SocPeripherals.Proofs.Dma.ErrandHistory

/-!
# What a poll leaves of a transfer

A poll does what is due only once the deadline of the last unit has been reached. Before that it
leaves a transfer where it stands, though units may be due that a register read would show as moved.
From the deadline on a poll and a read leave the same.
-/

namespace SocPeripherals

namespace Dma

variable {μ : Type} [Bus μ] {cyclesPerUnit : UInt64} {attached : Attached μ} {clock : Clock}
  {errands : Fin channelCount → Option Errand} {index : Fin channelCount}

/-! ## What is shown -/

/-- The errand is known, and just so many units have been copied, as the address registers and the
count tell of a saved channel. -/
def Errand.IsShown (errand : Option Errand) (saved : Snapshot) (units : Nat) : Prop :=
  ∃ known ∈ errand, known.plan.Copies units known.calls ∧ saved.regs.take 3 =
    [known.plan.sourceAt units, known.plan.targetAt units,
      known.plan.count - UInt32.ofNat units]

omit [Bus μ] in
theorem Errand.HasCopied.isShown {errand : Errand} {channel : Channel} {units : Nat}
    (copied : errand.HasCopied channel units) (within : units ≤ errand.plan.count.toNat)
    (clock : Clock) : Errand.IsShown (some errand) (channel.snapshot clock) units := by
  obtain ⟨copies, stands⟩ := copied
  have left : channel.bank.get countIndex = errand.plan.count - UInt32.ofNat units := by
    rw [← UInt32.toNat_inj, Channel.toNat_left within]
    exact stands.left
  have regs : (channel.snapshot clock).regs.take 3 = [channel.bank.get sourceIndex,
      channel.bank.get targetIndex, channel.bank.get countIndex] := by
    have all : channel.bank.toList = (List.finRange registers.length).map channel.bank.get :=
      (List.map_id _).symm.trans (Parts.map_toList id channel.bank.values)
    change channel.bank.toList.take 3 = _
    rw [all]
    rfl
  rw [stands.source, stands.target, left] at regs
  exact ⟨errand, rfl, copies, regs⟩

/-- A register read brings the channel whose register it is up to date, and its errand. -/
theorem channels_read (attached : Attached μ) (clock : Clock) (errand : Option Errand)
    (width : Width) {address offset : UInt32} (there : route? address = some (index, offset)) :
    let read := (attached.dma.read clock attached.memory width address).value.2
    let caught := attached.dma.channels[index].catchUp clock attached.memory
    read.1.channels[index] = caught.value.1 ∧
      attached.errandAfter clock read.1 index errand (.read width address)
        = Errand.extendedIfKnown errand caught.signals := by
  have caughtUp := (attached.dma.channels[index].read_eq clock attached.memory width offset).1
  have self : (attached.dma.read clock attached.memory width address).value.2.1.channels[index]
      = (attached.dma.channels[index].catchUp clock attached.memory).value.1 := by
    unfold Dma.read
    rw [there]
    exact (Parts.getElem_set_self ..).trans (congrArg Prod.fst caughtUp)
  have told : (attached.perform clock (.read width address)).signals.filter (!Signal.isRemark ·)
      = (attached.dma.channels[index].catchUp clock attached.memory).signals.filter
        (!Signal.isRemark ·) := by
    have same : (attached.dma.read clock attached.memory width address).signals
        = (attached.dma.channels[index].read clock attached.memory width offset).signals := by
      unfold Dma.read
      rw [there]
      exact List.append_nil _
    change ((attached.dma.read clock attached.memory width address).signals ++ []).filter _ = _
    rw [List.append_nil, same]
    exact Channel.filter_read ..
  refine ⟨self, ?_⟩
  change attached.accessed clock _ _ index errand ((route? address).map Prod.fst) = _
  rw [there]
  refine (if_pos rfl).trans ?_
  rw [self, Errand.HoldsIfKnown.accessed_self]
  exact congrArg (errand.map ·) (funext (Errand.extended_eq told))

/-- While a transfer runs, no more units have been copied than are due. A poll copies nothing before
the last unit is due. From then on until half of the counter later, it copies all that is left, if
the memory takes it. A register read always copies just what is due, if the memory takes it. -/
theorem poll_of_history (history : ErrandHistory cyclesPerUnit attached clock errands)
    {index : Fin channelCount} {transfer : Transfer} {errand : Errand}
    (active : attached.dma.channels[index].transfer = some transfer)
    (known : errands index = some errand) :
    let channel := attached.dma.channels[index]
    let length := transfer.total.toNat * cyclesPerUnit.toNat
    let due := min transfer.total.toNat (errand.cycles / cyclesPerUnit.toNat)
    let polled := attached.dma.poll clock attached.memory
    errand.cycles < length + Clock.horizon.toNat →
      (∃ units ≤ due, Errand.IsShown (some errand) (channel.snapshot clock) units) ∧
      (errand.cycles < length → polled.value.1.channels[index] = channel ∧
        attached.errandAfter clock polled.value.1 index (some errand) .poll = some errand) ∧
      (length ≤ errand.cycles → channel.IsUnhindered (attached.turn clock index).2 →
        Errand.IsShown (attached.errandAfter clock polled.value.1 index (some errand) .poll)
          (polled.value.1.channels[index].snapshot polled.value.2.1) due) ∧
      ∀ (width : Width) (address offset : UInt32), route? address = some (index, offset) →
        channel.IsUnhindered attached.memory →
        let read := (attached.dma.read clock attached.memory width address).value.2
        Errand.IsShown (attached.errandAfter clock read.1 index (some errand)
          (.read width address)) (read.1.channels[index].snapshot read.2.1) due := by
  have pace := (history.built index).cyclesPerUnit
  have runs : errand.Runs attached.dma.channels[index] clock.now transfer :=
    history.busy index errand known transfer active
  have turn := runs.still (now_turn attached clock index)
  have within : errand.due cyclesPerUnit ≤ errand.plan.count.toNat := Nat.min_le_left _ _
  rw [← pace] at within ⊢
  rw [runs.total]
  intro channel length due polled recent
  have few := (runs.reached_iff_due recent).1
  have polling : attached.errandAfter clock polled.value.1 index (some errand) .poll
      = some (errand.extended (channel.poll (attached.turn clock index).1
        (attached.turn clock index).2).signals) := rfl
  rw [polling, channels_poll]
  refine ⟨⟨_, (runs.outstanding few).2, ?_⟩, ?_, ?_, ?_⟩
  · exact runs.hasCopied.isShown ((runs.outstanding few).2.trans within) clock
  · intro early
    rw [turn.poll_early active early]
    exact ⟨rfl, congrArg some errand.extended_nil⟩
  · intro late unhindered
    exact (turn.poll_late active late recent unhindered).isShown within _
  · intro width address offset there unhindered
    obtain ⟨after, told⟩ := channels_read attached clock (some errand) width there
    dsimp only
    rw [told, after]
    exact (runs.hasCopied_catchUp active few unhindered).isShown within _

/-- Four bytes are asked for. After nine cycles two of them are due, and after sixteen all. -/
theorem poll_of_history_timely :
    ∃ (begun : Attached Ram) (clock halfway whole : Clock),
      (Attached.perform ⟨initial 4, Ram.ofList [1, 2, 3, 4, 0, 0, 0, 0]⟩ {}
        (.start 0 0 4 4 0)).outcome = .ok (begun, clock) ∧
      (begun.perform clock (.increment 9)).outcome = .ok (begun, halfway) ∧
      (begun.perform clock (.increment 16)).outcome = .ok (begun, whole) ∧
      let errand := Errand.fresh (.ofBank begun.dma.channels[(0 : Fin channelCount)].bank)
      let polled := begun.dma.poll halfway begun.memory
      let read := (begun.dma.read halfway begun.memory .word 0).value.2
      let ended := begun.dma.poll whole begun.memory
      polled.value.1.channels[(0 : Fin channelCount)] = begun.dma.channels[(0 : Fin channelCount)] ∧
      Errand.IsShown (begun.errandAfter halfway read.1 0 (some (errand.aged 9)) (.read .word 0))
        (read.1.channels[(0 : Fin channelCount)].snapshot read.2.1) 2 ∧
      Errand.IsShown (begun.errandAfter whole ended.value.1 0 (some (errand.aged 16)) .poll)
        (ended.value.1.channels[(0 : Fin channelCount)].snapshot ended.value.2.1) 4 := by
  have states : ∃ (begun : Attached Ram) (clock halfway whole : Clock) (transfer : Transfer),
      (Attached.perform ⟨initial 4, Ram.ofList [1, 2, 3, 4, 0, 0, 0, 0]⟩ {}
        (.start 0 0 4 4 0)).outcome = .ok (begun, clock) ∧
      (begun.perform clock (.increment 9)).outcome = .ok (begun, halfway) ∧
      (begun.perform clock (.increment 16)).outcome = .ok (begun, whole) ∧
      begun.dma.channels[(0 : Fin channelCount)].transfer = some transfer ∧
      transfer.total = 4 ∧
      (begun.dma.channels[(0 : Fin channelCount)].reach transfer begun.memory
        (transfer.total.toNat - transfer.moved.toNat)).refusal = none ∧
      Attached.errandAfter ⟨initial 4, Ram.ofList [1, 2, 3, 4, 0, 0, 0, 0]⟩ {} begun.dma 0 none
        (.start 0 0 4 4 0)
          = some (Errand.fresh (.ofBank begun.dma.channels[(0 : Fin channelCount)].bank)) :=
    ⟨_, _, _, _, _, rfl, rfl, rfl, rfl, rfl, rfl, rfl⟩
  obtain ⟨begun, clock, halfway, whole, transfer, started, passed, ended, active, total, taken,
    asked⟩ := states
  have initially : ErrandHistory 4 (⟨initial 4, Ram.ofList [1, 2, 3, 4, 0, 0, 0, 0]⟩ : Attached Ram)
      {} fun _ => none := .start {} _
  have history := initially.perform _ started
  have unhindered : begun.dma.channels[(0 : Fin channelCount)].IsUnhindered begun.memory := by
    intro _ known
    cases active.symm.trans known
    exact taken
  have known (cycles : UInt64) := congrArg (Option.map fun errand => errand.aged cycles.toNat) asked
  have early := poll_of_history (history.perform _ passed) active (known 9)
  have late := poll_of_history (history.perform _ ended) active (known 16)
  rw [total] at early late
  have nine : (0 + 9 : Nat) < (4 : UInt32).toNat * (4 : UInt64).toNat := by decide
  have sixteen : (4 : UInt32).toNat * (4 : UInt64).toNat ≤ (0 + 16 : Nat) := by decide
  have recent : (0 + 16 : Nat) < (4 : UInt32).toNat * (4 : UInt64).toNat + Clock.horizon.toNat := by
    decide
  obtain ⟨-, waits, -, read⟩ := early (nine.trans_le (Nat.le_add_right _ _))
  obtain ⟨-, -, copied, -⟩ := late recent
  have two : min (4 : UInt32).toNat ((0 + 9) / (4 : UInt64).toNat) = 2 := by decide
  have four : min (4 : UInt32).toNat ((0 + 16) / (4 : UInt64).toNat) = 4 := by decide
  exact ⟨begun, clock, halfway, whole, started, passed, ended, (waits nine).1,
    (congrArg (Errand.IsShown _ _) two).mp (read .word 0 0 rfl unhindered),
    (congrArg (Errand.IsShown _ _) four).mp (copied sixteen unhindered)⟩

/-- What a poll leaves need not be what is due. Two of four bytes are due, and none is copied; the
deadline has been missed by half of the counter, and none is copied; a saved transfer says that more
has been copied than its addresses tell, and one byte is copied in the time of four; an engine takes
over from a faster one what is not due yet. -/
theorem poll_unlike_due :
    (∃ (begun : Attached Ram) (clock later : Clock),
      (Attached.perform ⟨initial 4, Ram.ofList [1, 2, 3, 4, 0, 0, 0, 0]⟩ {}
        (.start 0 0 4 4 0)).outcome = .ok (begun, clock) ∧
      (begun.perform clock (.increment 9)).outcome = .ok (begun, later) ∧
      let polled := begun.dma.poll later begun.memory
      polled.signals = [] ∧
        (polled.value.1.channels[(0 : Fin channelCount)].snapshot polled.value.2.1).regs.take 3
          ≠ [0 + 9 / 4, 4 + 9 / 4, 4 - 9 / 4]) ∧
    (∃ (begun : Attached Ram) (clock middle later : Clock),
      (Attached.perform ⟨initial 1, Ram.ofList [1, 2, 3, 4, 0, 0, 0, 0]⟩ {}
        (.start 0 0 4 4 0)).outcome = .ok (begun, clock) ∧
      (begun.perform clock (.increment 0x7ffffffffffffffe)).outcome = .ok (begun, middle) ∧
      (begun.perform middle (.increment 0x7ffffffffffffffe)).outcome = .ok (begun, later) ∧
      let polled := begun.dma.poll later begun.memory
      polled.signals = [] ∧
        (polled.value.1.channels[(0 : Fin channelCount)].snapshot polled.value.2.1).regs.take 3
          ≠ [0 + 4, 4 + 4, 4 - 4]) ∧
    (∃ (after : Attached Ram) (clock later : Clock),
      (Attached.restore ⟨initial 1, Ram.ofList [1, 2, 3, 4, 0, 0, 0, 0]⟩ {}
        [⟨[0, 4, 4, 0x400], some ⟨4, 3, 0⟩⟩, ⟨[0, 0, 0, 0], none⟩]).outcome
          = .ok (.ok (), after, clock) ∧
      (after.perform clock (.increment 4)).outcome = .ok (after, later) ∧
      let polled := after.dma.poll later after.memory
      polled.signals.filterMap Signal.host? = [.read .byte 0, .write .byte 4 1] ∧
        (polled.value.1.channels[(0 : Fin channelCount)].snapshot polled.value.2.1).regs.take 3
          ≠ [0 + 4, 4 + 4, 4 - 4]) ∧
    ∃ (begun moved after : Attached Ram) (clock middle saving later : Clock),
      (Attached.perform ⟨initial 1, Ram.ofList [1, 2, 3, 4, 0, 0, 0, 0]⟩ {}
        (.start 0 0 4 4 0)).outcome = .ok (begun, clock) ∧
      (begun.perform clock (.increment 2)).outcome = .ok (begun, middle) ∧
      (begun.perform middle (.read .word 0)).outcome = .ok (moved, saving) ∧
      (Attached.restore ⟨initial 10, moved.memory⟩ saving (moved.dma.snapshot saving)).outcome
        = .ok (.ok (), after, later) ∧
      let polled := after.dma.poll later after.memory
      polled.signals = [] ∧
        (polled.value.1.channels[(0 : Fin channelCount)].snapshot polled.value.2.1).regs.take 3
          ≠ [0 + 2 / 10, 4 + 2 / 10, 4 - 2 / 10] := by
  refine ⟨⟨_, _, _, rfl, rfl, rfl, ?_⟩, ⟨_, _, _, _, rfl, rfl, rfl, rfl, ?_⟩,
    ⟨_, _, _, rfl, rfl, rfl, ?_⟩, ⟨_, _, _, _, _, _, _, rfl, rfl, rfl, rfl, rfl, ?_⟩⟩
  all_goals decide

end Dma

end SocPeripherals
