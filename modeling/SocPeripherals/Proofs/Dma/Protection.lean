import SocPeripherals.Bus.Ram
import SocPeripherals.Proofs.Bench
import SocPeripherals.Proofs.Dma.Engine
import SocPeripherals.Proofs.Isolation.Devices

/-!
# Channels under way cannot be written

Whatever is asked of a channel, it first moves the units that are due. If its transfer is still
under way then, a write or a request of the host is refused, and nothing has been done that reading
a register would not have done.
-/

namespace SocPeripherals

namespace Dma

variable {μ : Type} [Bus μ]

namespace Channel

variable {channel : Channel} {clock : Clock} {memory : μ}

/-- A read does what the channel has fallen behind with. -/
theorem read_agrees (channel : Channel) (clock : Clock) (memory : μ) (width : Width)
    (address : UInt32) :
    (Prod.snd <$> Run.ofTraced (channel.read clock memory width address)).Agrees Signal.isRemark
      (Run.ofTraced (channel.catchUp clock memory)) := by
  have told : (channel.read clock memory width address).signals =
      (channel.catchUp clock memory).signals ++
        (Selection.noted Signal.note "dma" registers width address).signals := by
    unfold read
    dsimp only [Traced.signals_bind]
    rw [Selection.value_noted]
    cases Selection.find? registers width address <;> simp
  refine ⟨congrArg Except.ok (channel.read_eq clock memory width address).1, ?_⟩
  have remarked := Selection.noted_remarks "dma" registers width address
  change List.filter _ ((channel.read clock memory width address).signals ++ []) = _
  rw [List.append_nil, told, List.filter_append, remarked, List.append_nil]
  rfl

/-- A write to a channel whose transfer is still under way does what a read does. -/
theorem write_agrees (active : (channel.catchUp clock memory).value.1.isActive = true)
    (width : Width) (address value : UInt32) :
    (channel.write clock memory width address value).Agrees Signal.isRemark
      (Run.ofTraced (channel.catchUp clock memory)) := by
  unfold write
  rw [← bind_pure (Run.ofTraced (channel.catchUp clock memory))]
  refine .bind (.refl _) (.traced _) ?_
  rintro _ rfl
  have remarks := Selection.noted_remarks "dma" registers width address
  refine (Run.Agrees.afterRemarks remarks _).trans ?_
  split
  next => exact .refl _
  next selection _ =>
    rw [if_pos active]
    exact .afterRemark rfl _

/-- A request of the host to a channel whose transfer is still under way does what a read does. -/
theorem start_of_active (active : (channel.catchUp clock memory).value.1.isActive = true)
    (source target count control : UInt32) :
    channel.start clock memory source target count control =
      (fun after => (.error after.1.busy, after)) <$>
        Run.ofTraced (channel.catchUp clock memory) := by
  unfold start
  rw [← bind_pure_comp]
  refine Run.Ensures.bind_congr (.traced _) ?_
  rintro _ rfl
  exact if_pos active

end Channel

/-- A request of the host on a bench. -/
def startOn (bench : Bench (Attached μ)) (number : Nat) (source target count control : UInt32) :
    Run Event (Except DeviceError Unit × Bench (Attached μ)) :=
  bench.act fun attached clock => attached.start clock number source target count control

variable {bench : Bench (Attached μ)} {index : Fin channelCount} {width readWidth : Width}
  {address offset readAddress readOffset : UInt32}

/-- A read of any of its registers brings a channel up to date, and does nothing else. -/
theorem read_settles (bench : Bench (Attached μ)) (width : Width)
    (there : route? address = some (index, offset)) :
    (Prod.snd <$> bench.read width address).Agrees Event.isRemark
      (bench.settle (bench.device.put index <$> Run.ofTraced
        (bench.device.dma.channels[index].catchUp bench.clock bench.device.memory))) := by
  have reads := bench.snd_act fun device clock => Device.read device clock width address
  rw [Attached.read_eq _ _ _ there, Functor.map_map] at reads
  have read := (Channel.read_agrees bench.device.dma.channels[index] bench.clock
    bench.device.memory width offset).map (bench.device.put index)
  rw [Functor.map_map] at read
  unfold Bench.read
  rw [reads]
  exact bench.settle_agrees read

/-- A write to a channel whose transfer is still under way brings it up to date as well, and is only
remarked about. -/
theorem write_settles (bench : Bench (Attached μ))
    (active : (bench.device.dma.channels[index].catchUp bench.clock bench.device.memory
      ).value.1.isActive = true)
    (width : Width) (there : route? address = some (index, offset)) (value : UInt32) :
    (Prod.snd <$> bench.write width address value).Agrees Event.isRemark
      (bench.settle (bench.device.put index <$> Run.ofTraced
        (bench.device.dma.channels[index].catchUp bench.clock bench.device.memory))) := by
  have writes := bench.snd_act fun device clock => Device.write device clock width address value
  rw [Attached.write_eq _ _ _ there, Functor.map_map, Functor.map_map] at writes
  unfold Bench.write
  rw [writes]
  exact bench.settle_agrees ((Channel.write_agrees active width offset value).map _)

/-- While a transfer is under way, every write to a register of the channel and every request of the
host leaves the engine, the clock, the memory and the interrupt controller as a mere read of any of
the registers does, and the surroundings see the same but for remarks; the host is refused. The
other channel is not touched. A number past the channels and an address past their registers change
nothing. -/
theorem refused_while_active (bench : Bench (Attached μ)) :
    (∀ index : Fin channelCount,
      (bench.device.dma.channels[index].catchUp bench.clock bench.device.memory).value.1.isActive
        = true →
      ∀ (readWidth : Width) (readAddress readOffset : UInt32),
        route? readAddress = some (index, readOffset) →
        let look := Prod.snd <$> bench.read readWidth readAddress
        (∃ after : Bench (Attached μ), look.outcome = .ok after ∧
          after.device.dma.channels[index].isActive = true ∧
          ∀ other, other ≠ index →
            after.device.dma.channels[other] = bench.device.dma.channels[other]) ∧
        (∀ width address offset value, route? address = some (index, offset) →
          (Prod.snd <$> bench.write width address value).Agrees Event.isRemark look) ∧
        ∀ source target count control,
          (Prod.fst <$> startOn bench index source target count control).outcome
            = .ok (.error (.invalidState
              s!"dma{bench.device.dma.channels[index].index} transfer in progress")) ∧
          (Prod.snd <$> startOn bench index source target count control).Agrees Event.isRemark
            look) ∧
    (∀ number, channelCount ≤ number → ∀ source target count control,
      startOn bench number source target count control
        = pure (.error (.invalidState "no such dma channel"), bench)) ∧
    ∀ width address value, 0x20 ≤ address →
      bench.write width address value = ⟨.ok ((), bench), [.note (.noRegister "dma" address)]⟩ := by
  refine ⟨fun index active readWidth readAddress readOffset there => ?_, ?_, ?_⟩
  · have looked := read_settles bench readWidth there
    refine ⟨⟨_, looked.outcome, ?_, fun other apart => ?_⟩, ?_, ?_⟩
    · exact (congrArg Channel.isActive (Parts.getElem_set_self ..)).trans active
    · exact Parts.getElem_set_of_ne _ _ apart.symm
    · exact fun width address offset value here =>
        (write_settles bench active width here value).trans looked.symm
    · intro source target count control
      have starts := bench.snd_act fun attached clock =>
        attached.start clock index source target count control
      have answers := bench.fst_act fun attached clock =>
        attached.start clock index source target count control
      rw [Attached.start_eq _ _ (channel?_val index), Channel.start_of_active active]
        at starts answers
      have index_eq := (bench.device.dma.channels[index].catchUp_step bench.clock
        bench.device.memory).index
      constructor
      · refine answers.trans ?_
        rw [← index_eq]
        rfl
      · rw [Functor.map_map, Functor.map_map] at starts
        unfold startOn
        rw [starts]
        exact looked.symm
  · intro number past source target count control
    have nobody : channel? number = none := dif_neg (Nat.not_lt.2 past)
    unfold startOn Bench.act
    dsimp only
    rw [Attached.start_of_nobody _ _ nobody]
    rfl
  · intro width address value past
    unfold Bench.write Bench.act
    dsimp only
    rw [Attached.write_of_nobody _ _ _ (route?_of_le past)]
    rfl

/-- A transfer of four bytes of which two are due, and a second request for it. -/
theorem refused_while_active_halfway :
    let bench : Bench (Attached Ram) :=
      { clock := {}, device := ⟨initial 4, Ram.ofList [1, 2, 3, 4, 0, 0, 0, 0]⟩ }
    ∃ begun between, (startOn bench 0 0 4 4 0).outcome = .ok (.ok (), begun) ∧
      begun.increment 9 = .ok (false, between) ∧
      (Prod.fst <$> startOn between 0 1 2 3 0).outcome
        = .ok (.error (.invalidState "dma0 transfer in progress")) ∧
      (Prod.snd <$> startOn between 0 1 2 3 0).Agrees Event.isRemark
        (Prod.snd <$> between.read .word 0) ∧
      (Prod.snd <$> between.write .word 0xc 0x400).Agrees Event.isRemark
        (Prod.snd <$> between.read .word 0) := by
  have halfway : ∃ begun between : Bench (Attached Ram),
      (startOn { clock := {}, device := ⟨initial 4, Ram.ofList [1, 2, 3, 4, 0, 0, 0, 0]⟩ }
        0 0 4 4 0).outcome = .ok (.ok (), begun) ∧
      begun.increment 9 = .ok (false, between) ∧
      between.device.dma.channels[(0 : Fin channelCount)].index = 0 ∧
      (between.device.dma.channels[(0 : Fin channelCount)].catchUp between.clock
        between.device.memory).value.1.isActive = true :=
    ⟨_, _, rfl, rfl, rfl, rfl⟩
  obtain ⟨begun, between, started, passed, number, active⟩ := halfway
  obtain ⟨-, writes, starts⟩ := (refused_while_active between).1 0 active .word 0 0 rfl
  obtain ⟨answers, same⟩ := starts 1 2 3 0
  rw [number] at answers
  exact ⟨begun, between, started, passed, answers, same, writes .word 0xc 0xc 0x400 rfl⟩

end Dma

end SocPeripherals
