import SocPeripherals.Dma.Engine
import SocPeripherals.Proofs.Run

/-!
# One channel of the engine

An access to a register of a channel, and a request of the host for it, come to that channel alone.
What becomes of the channel, the clock and the memory is put in their places. Past the channels
nobody is there. What was saved is taken over by one channel after the other.
-/

namespace SocPeripherals

namespace Dma

variable {μ : Type} {index : Fin channelCount} {address offset : UInt32}

/-- No register is past those of the channels. -/
theorem route?_of_le (past : 0x20 ≤ address) : route? address = none := by
  refine dif_neg (Nat.not_lt.2 ?_)
  rw [UInt32.le_iff_toNat_le] at past
  rw [UInt32.toNat_div]
  exact (Nat.le_div_iff_mul_le (by decide)).2 past

theorem channel?_val (index : Fin channelCount) : channel? index.val = some index :=
  dif_pos index.isLt

section Restore

variable {dma after : Dma} {clock later : Clock} {answer : Except DeviceError Unit}

/-- What one channel takes over leaves the other as it is. -/
theorem of_restoreChannel {saved : Snapshot}
    (done : dma.restoreChannel clock index saved = .ok (answer, after, later)) :
    ∃ channel, dma.channels[index].restore clock saved = .ok (answer, channel, later) ∧
      after = dma.set index channel := by
  obtain ⟨⟨answered, channel, middle⟩, restored, same⟩ := Run.except_bind_eq_ok.1 done
  cases same
  exact ⟨channel, restored, rfl⟩

/-- Unless there are not as many saved channels, the first channel takes over its part, and if it
does not refuse it, the second one takes over its own. -/
theorem of_restore {snapshots : List Snapshot}
    (done : dma.restore clock snapshots = .ok (answer, after, later)) :
    ((∃ error, answer = .error error) ∧ after = dma ∧ later = clock) ∨
      ∃ first second, snapshots = [first, second] ∧
        ((∃ error, answer = .error error ∧
            dma.restoreChannel clock 0 first = .ok (.error error, after, later)) ∨
          ∃ between middle, dma.restoreChannel clock 0 first = .ok (.ok (), between, middle) ∧
            between.restoreChannel middle 1 second = .ok (answer, after, later)) := by
  unfold restore at done
  split at done
  next first second =>
    obtain ⟨⟨answered, between, middle⟩, begun, rest⟩ := Run.except_bind_eq_ok.1 done
    refine .inr ⟨first, second, rfl, ?_⟩
    cases answered with
    | error error =>
        cases rest
        exact .inl ⟨error, rfl, begun⟩
    | ok => exact .inr ⟨between, middle, begun, rest⟩
  next =>
    cases done
    exact .inl ⟨⟨_, rfl⟩, rfl, rfl⟩

end Restore

namespace Attached

/-- One channel, its clock and its memory have become something else. -/
def put (attached : Attached μ) (index : Fin channelCount) (after : Channel × Clock × μ) :
    Attached μ × Clock :=
  (⟨attached.dma.set index after.1, after.2.2⟩, after.2.1)

theorem put_self (attached : Attached μ) (clock : Clock) :
    attached.put index (attached.dma.channels[index], clock, attached.memory)
      = (attached, clock) := by
  unfold put Dma.set
  rw [Parts.set_getElem]

theorem put_put (attached : Attached μ) (first second : Channel × Clock × μ) :
    (attached.put index first).1.put index second = attached.put index second := by
  unfold put Dma.set
  rw [Vector.set_set]

theorem channel_put (attached : Attached μ) (after : Channel × Clock × μ) :
    (attached.put index after).1.dma.channels[index] = after.1 :=
  Parts.getElem_set_self ..

variable [Bus μ]

theorem read_eq (attached : Attached μ) (clock : Clock) (width : Width)
    (there : route? address = some (index, offset)) :
    Device.read attached clock width address = Prod.map id (attached.put index) <$>
      Run.ofTraced (attached.dma.channels[index].read clock attached.memory width offset) := by
  change Run.ofTraced (attached.dma.read clock attached.memory width address) >>= _ = _
  unfold Dma.read
  rw [there, ← bind_pure_comp]
  exact congrArg (Run.mk _) (congrArg (· ++ []) (List.append_nil _))

theorem write_eq (attached : Attached μ) (clock : Clock) (width : Width)
    (there : route? address = some (index, offset)) (value : UInt32) :
    Device.write attached clock width address value = Prod.map id (attached.put index) <$>
      (((), ·) <$>
        attached.dma.channels[index].write clock attached.memory width offset value) := by
  change attached.dma.write clock attached.memory width address value >>= _ = _
  unfold Dma.write
  rw [there, Functor.map_map, ← bind_pure_comp]
  simp only [bind_assoc, pure_bind]
  rfl

theorem start_eq {number : Nat} (attached : Attached μ) (clock : Clock)
    (here : channel? number = some index) (source target count control : UInt32) :
    attached.start clock number source target count control = Prod.map id (attached.put index) <$>
      attached.dma.channels[index].start clock attached.memory source target count control := by
  unfold start Dma.start
  rw [here, ← bind_pure_comp]
  simp only [bind_assoc, pure_bind]
  rfl

/-- A write past the channels is only remarked about. -/
theorem write_of_nobody (attached : Attached μ) (clock : Clock) (width : Width)
    (nobody : route? address = none) (value : UInt32) :
    Device.write attached clock width address value
      = ⟨.ok ((), attached, clock), [.note (.noRegister "dma" address)]⟩ := by
  change attached.dma.write clock attached.memory width address value >>= _ = _
  unfold Dma.write
  rw [nobody]
  rfl

/-- A request for a channel that is not there is refused. -/
theorem start_of_nobody {number : Nat} (attached : Attached μ) (clock : Clock)
    (nobody : channel? number = none) (source target count control : UInt32) :
    attached.start clock number source target count control
      = pure (.error (.invalidState "no such dma channel"), attached, clock) := by
  unfold start Dma.start
  rw [nobody]
  rfl

end Attached

end Dma

end SocPeripherals
