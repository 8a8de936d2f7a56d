import SocPeripherals.Proofs.Dma.Protection
import SocPeripherals.Proofs.Dma.Reached

/-!
# Requests of the host and programs of the firmware

A transfer can be begun in two ways: the host asks for it, or the firmware writes source, target and
count and then raises the start bit. The host's request stores what it is asked for as it is; a
write begins a transfer only at an edge of the start bit, and keeps the error bit. They agree
wherever the start bit is set just while a transfer is under way, which every operation keeps.
-/

namespace SocPeripherals

namespace Transfer

/-- Once the units asked for have been moved, there are none of them left. -/
theorem outstanding_moved (transfer : Transfer) (target : UInt32) :
    outstanding
      { transfer with moved := transfer.moved + UInt32.ofNat (transfer.outstanding target) } target
        = 0 := by
  have bound := transfer.total.toNat_lt
  have start := transfer.moved.toNat_lt
  have units := transfer.outstanding_eq target
  rw [outstanding_eq]
  generalize transfer.outstanding target = more at units ⊢
  dsimp only
  rw [UInt32.toNat_add, UInt32.toNat_ofNat']
  omega

end Transfer

namespace Dma

variable {μ : Type} [Bus μ]

namespace Channel

variable {channel : Channel} {clock : Clock} {memory : μ} {transfer : Transfer}

/-! ## A channel that is up to date -/

/-- After an advance the transfer is over, or it stands where the memory has taken all that was
asked for. -/
theorem advance_cases (active : channel.transfer = some transfer) (clock : Clock) (memory : μ)
    (target : UInt32) :
    let progress := channel.reach transfer memory (transfer.outstanding target)
    let advanced := (channel.advance clock memory target).value
    advanced.1.transfer = none ∨ progress.refusal = none ∧
      progress.position.moved ≠ transfer.total ∧
      advanced = (channel.arrive transfer progress.position, clock, progress.memory) := by
  unfold advance reach
  rw [active]
  dsimp only
  generalize transfer.moveUnits (transfer.outstanding target) (channel.position transfer) memory []
    = progress
  obtain ⟨position, there, refusal, calls⟩ := progress
  cases refusal with
  | some refusal => exact .inl rfl
  | none =>
      dsimp only
      split
      next => exact .inl rfl
      next few => exact .inr ⟨rfl, few, rfl⟩

/-- Who has come as far as is asked for moves nothing. -/
theorem advance_of_arrived (active : channel.transfer = some transfer) {target : UInt32}
    (arrived : transfer.outstanding target = 0) (going : transfer.moved ≠ transfer.total)
    (clock : Clock) (memory : μ) :
    channel.advance clock memory target = pure (channel, clock, memory) := by
  unfold advance
  rw [active]
  dsimp only
  rw [arrived]
  change ((if transfer.moved = transfer.total then _ else _) : Traced Signal _) = _
  rw [if_neg going]
  exact congrArg (fun same => (pure (same, clock, memory) : Traced Signal _))
    (arrive_position active)

/-- What is due has been moved by then. -/
theorem catchUp_again (channel : Channel) (clock : Clock) (memory : μ) :
    let (caught, later, there) := (channel.catchUp clock memory).value
    caught.catchUp later there = pure (caught, later, there) := by
  cases active : channel.transfer with
  | none =>
      rw [catchUp_of_idle active]
      exact catchUp_of_idle active clock memory
  | some transfer =>
      by_cases timed : channel.cyclesPerUnit = 0
      · have same : channel.catchUp clock memory = pure (channel, clock, memory) := by
          unfold catchUp
          rw [active]
          exact if_pos timed
        rw [same]
        exact same
      rw [catchUp_of_timed active timed]
      rcases advance_cases active clock memory (channel.dueUnits clock transfer)
        with ended | ⟨taken, few, value⟩
      · exact catchUp_of_idle ended _ _
      · rw [value]
        have moved := moved_reach taken
        refine (catchUp_of_timed (transfer_arrive _ _ _) timed _ _).trans ?_
        refine advance_of_arrived (transfer_arrive _ _ _) ?_ few _ _
        change Transfer.outstanding { transfer with moved := _ } (channel.dueUnits clock transfer)
          = 0
        rw [moved]
        exact transfer.outstanding_moved _

/-- A write may bring the channel up to date first. -/
theorem write_caughtUp (channel : Channel) (clock : Clock) (memory : μ) (width : Width)
    (address value : UInt32) :
    channel.write clock memory width address value =
      Run.ofTraced (channel.catchUp clock memory) >>= fun (caught, later, there) =>
        caught.write later there width address value := by
  have again := channel.catchUp_again clock memory
  conv_lhs => unfold write
  refine Run.Ensures.bind_congr (.traced _) ?_
  rintro _ rfl
  generalize (channel.catchUp clock memory).value = value at again ⊢
  obtain ⟨caught, later, there⟩ := value
  dsimp only at again ⊢
  unfold write
  rw [again]
  rfl

/-- A request of the host may bring the channel up to date first. -/
theorem start_caughtUp (channel : Channel) (clock : Clock) (memory : μ)
    (source target count control : UInt32) :
    channel.start clock memory source target count control =
      Run.ofTraced (channel.catchUp clock memory) >>= fun (caught, later, there) =>
        caught.start later there source target count control := by
  have again := channel.catchUp_again clock memory
  conv_lhs => unfold start
  refine Run.Ensures.bind_congr (.traced _) ?_
  rintro _ rfl
  generalize (channel.catchUp clock memory).value = value at again ⊢
  obtain ⟨caught, later, there⟩ := value
  dsimp only at again ⊢
  unfold start
  rw [again]
  rfl

/-- Writes words to registers of the channel in order. -/
def writeAll (channel : Channel) (clock : Clock) (memory : μ) :
    List (UInt32 × UInt32) → Run Signal (Channel × Clock × μ)
  | [] => pure (channel, clock, memory)
  | (address, value) :: rest => do
      let (channel, clock, memory) ← channel.write clock memory .word address value
      channel.writeAll clock memory rest

/-- While a transfer is under way, nothing comes of words that are written. -/
theorem writeAll_of_active (current : channel.catchUp clock memory = pure (channel, clock, memory))
    (active : channel.isActive = true) (words : List (UInt32 × UInt32)) :
    (channel.writeAll clock memory words).Agrees Signal.isRemark
      (pure (channel, clock, memory)) := by
  have still : (channel.catchUp clock memory).value.1.isActive = true := by
    rw [current]
    exact active
  induction words with
  | nil => exact .refl _
  | cons word rest ih =>
      have ignored := write_agrees still .word word.1 word.2
      rw [current] at ignored
      have stays : (channel.write clock memory .word word.1 word.2).Ensures
          fun after => after = (channel, clock, memory) := by
        intro after done
        exact Except.ok.inj (done.symm.trans ignored.outcome)
      rw [← bind_pure (pure (channel, clock, memory) : Run Signal _)]
      refine ignored.bind stays ?_
      rintro _ rfl
      exact ih

/-- The words that ask for a transfer, with the offsets of the registers that they are for. -/
def requestWords (source target count control : UInt32) : List (UInt32 × UInt32) :=
  [(0x0, source), (0x4, target), (0x8, count), (0xc, control ||| startBit)]

/-- There is nothing to remark about a word that is written to a register. -/
theorem noted_word (index : Fin registers.length) :
    Selection.noted Signal.note "dma" registers .word (registers.get index).offset
      = pure (some (.whole registers index)) := by
  have found : ∀ index : Fin registers.length,
      Selection.find? registers .word (registers.get index).offset
        = some (.whole registers index) := by
    decide
  unfold Selection.noted
  rw [found]
  rfl

/-- A word that is written to a register is stored as it is. -/
theorem write_whole (bank : Bank registers) (index : Fin registers.length) (value : UInt32) :
    bank.write (.whole registers index) value
      = (⟨bank.get index, value⟩, bank.put index value) := by
  have plain : ∀ index : Fin registers.length, (registers.get index).access = .readWrite ∧
      (registers.get index).width.mask = 0xffffffff := by
    decide
  obtain ⟨access, mask⟩ := plain index
  have merged (old : UInt32) : (Selection.whole registers index).lane.merge old value = value := by
    have none : ~~~(0xffffffff : UInt32) = 0 := rfl
    have all : value &&& 0xffffffff = value := UInt32.and_neg_one
    unfold Selection.whole
    rw [mask]
    simp [Lane.merge, Lane.place, none, all]
  unfold Bank.write
  rw [Selection.register_whole, access]
  dsimp only
  rw [merged]
  rfl

/-- A word that is written to a register of an idle channel. -/
theorem write_word (idle : channel.transfer = none) (index : Fin registers.length)
    (value : UInt32) :
    channel.write clock memory .word (registers.get index).offset value =
      let stored := { channel with bank := channel.bank.put index value }
      if index = controlIndex then
        stored.controlled clock memory ⟨channel.bank.get index, value⟩
      else pure (stored, clock, memory) := by
  have inactive : ¬ channel.isActive = true := by simp [isActive, idle]
  unfold write
  rw [catchUp_of_idle idle, noted_word]
  change (if channel.isActive = true then _ else
    let written := channel.bank.write (.whole registers index) value
    let stored := { channel with bank := written.2 }
    if index = controlIndex then Channel.controlled stored clock memory written.1
    else pure (stored, clock, memory)) = _
  rw [if_neg inactive, write_whole]

/-- What is written to an address register or to the count register is only stored. -/
theorem writeAll_data (idle : channel.transfer = none) {index : Fin registers.length}
    (data : index ≠ controlIndex) (value : UInt32) (rest : List (UInt32 × UInt32)) :
    channel.writeAll clock memory (((registers.get index).offset, value) :: rest) =
      writeAll { channel with bank := channel.bank.put index value } clock memory rest := by
  rw [writeAll, write_word idle]
  dsimp only
  rw [if_neg data]
  rfl

/-- A request is stored without the error bit, whatever the control register has been. -/
theorem kept_of_request (old request : UInt32) :
    (request &&& ~~~errorBit ||| old &&& errorBit) &&& ~~~errorBit = request &&& ~~~errorBit := by
  have flawless : old &&& errorBit &&& ~~~errorBit = 0 := by
    rw [UInt32.and_assoc]
    exact UInt32.and_zero
  rw [or_and_distrib, flawless, UInt32.or_zero, UInt32.and_assoc, UInt32.and_self]

/-- A request raises the start bit where it is clear. -/
theorem rises_of_request {old : UInt32} (clear : ¬ old &&& startBit ≠ 0) (control : UInt32) :
    Change.rising ⟨old, control ||| startBit⟩ &&& startBit ≠ 0 := by
  rw [start_ne_zero_iff] at clear ⊢
  simp at clear
  simp [Change.rising, clear, startBit]

/-- The registers with a request of the host in them. -/
def requested (bank : Bank registers) (source target count control : UInt32) : Bank registers :=
  (((bank.put sourceIndex source).put targetIndex target).put countIndex count).put controlIndex
    ((control ||| startBit) &&& ~~~errorBit)

theorem start_of_idle (idle : channel.transfer = none) (source target count control : UInt32) :
    Prod.snd <$> channel.start clock memory source target count control =
      begin { channel with bank := requested channel.bank source target count control } clock
        memory := by
  have inactive : ¬ channel.isActive = true := by simp [isActive, idle]
  unfold start
  rw [catchUp_of_idle idle]
  change Prod.snd <$> (if channel.isActive = true then _ else _) = _
  rw [if_neg inactive, Registers.set_eq_put, Registers.set_eq_put, Registers.set_eq_put,
    Registers.set_eq_put, map_bind]
  exact bind_pure _

/-- A request that is written to the control register begins a transfer, unless a start bit is left
over. -/
theorem writeAll_request (idle : channel.transfer = none) (clear : ¬ channel.Shows startBit)
    (control : UInt32) :
    channel.writeAll clock memory [((registers.get controlIndex).offset, control ||| startBit)] =
      begin { channel with
        bank := channel.bank.put controlIndex ((control ||| startBit) &&& ~~~errorBit) } clock
          memory := by
  rw [writeAll, write_word idle]
  dsimp only
  rw [if_pos rfl, controlled]
  dsimp only
  rw [if_pos (rises_of_request clear control), Bank.clearBits, Registers.set_eq_put,
    Registers.set_eq_put, Bank.get_put_self, kept_of_request, Bank.put_put, Bank.put_put]
  exact bind_pure _

/-- The firmware begins what the host would, unless a start bit is left over. -/
theorem writeAll_requestWords (idle : channel.transfer = none) (clear : ¬ channel.Shows startBit)
    (source target count control : UInt32) :
    channel.writeAll clock memory (requestWords source target count control) =
      begin { channel with bank := requested channel.bank source target count control } clock
        memory := by
  have apart : sourceIndex ≠ controlIndex ∧ targetIndex ≠ controlIndex ∧
      countIndex ≠ controlIndex := by decide
  refine (writeAll_data idle apart.1 source _).trans ?_
  refine (writeAll_data (by exact idle) apart.2.1 target _).trans ?_
  refine (writeAll_data (by exact idle) apart.2.2 count _).trans ?_
  refine (writeAll_request (by exact idle) ?_ control).trans rfl
  rw [Shows, Bank.get_put_of_ne _ apart.2.2, Bank.get_put_of_ne _ apart.2.1,
    Bank.get_put_of_ne _ apart.1]
  exact clear

/-- The host's request and the firmware's program come to the same, but for remarks. -/
theorem start_agrees_writeAll (consistent : channel.IsConsistent) (clock : Clock) (memory : μ)
    (source target count control : UInt32) :
    (Prod.snd <$> channel.start clock memory source target count control).Agrees Signal.isRemark
      (channel.writeAll clock memory (requestWords source target count control)) := by
  have again := channel.catchUp_again clock memory
  have caughtUp := catchUp_isConsistent consistent clock memory
  have programmed : channel.writeAll clock memory (requestWords source target count control) =
      Run.ofTraced (channel.catchUp clock memory) >>= fun (caught, later, there) =>
        caught.writeAll later there (requestWords source target count control) := by
    unfold requestWords
    simp only [writeAll]
    rw [write_caughtUp, bind_assoc]
  rw [start_caughtUp, programmed, map_bind]
  refine .bind (.refl _) (.traced (channel.catchUp clock memory)) fun value same => ?_
  rw [← same] at again caughtUp
  obtain ⟨caught, later, there⟩ := value
  dsimp only at again caughtUp ⊢
  by_cases active : caught.isActive = true
  · have still : (caught.catchUp later there).value.1.isActive = true := by
      rw [again]
      exact active
    refine .trans ?_ (writeAll_of_active again active _).symm
    rw [start_of_active still, again]
    exact .refl _
  · have idle : caught.transfer = none := by simpa [isActive] using active
    rw [start_of_idle idle, writeAll_requestWords idle ((isConsistent_iff_of_idle idle).1 caughtUp)]
    exact .refl _

end Channel

/-! ## On a bench -/

/-- A word for a register of a channel, at the address of that register in the window. -/
def addressed (index : Fin channelCount) (word : UInt32 × UInt32) : UInt32 × UInt32 :=
  (stride * UInt32.ofNat index + word.1, word.2)

/-- The registers of a channel follow its place in the window. -/
theorem route?_add (index : Fin channelCount) {offset : UInt32} (within : offset < stride) :
    route? (stride * UInt32.ofNat index + offset) = some (index, offset) := by
  have each : ∀ index : Fin channelCount, ∀ place < stride.toNat,
      route? (stride * UInt32.ofNat index + UInt32.ofNat place)
        = some (index, UInt32.ofNat place) := by
    decide +kernel
  have here := each index offset.toNat (UInt32.lt_iff_toNat_lt.1 within)
  rwa [UInt32.ofNat_toNat] at here

namespace Attached

variable {index : Fin channelCount}

/-- Words that are written to the registers of one channel. -/
theorem writeAll_channel (attached : Attached μ) (clock : Clock) {words : List (UInt32 × UInt32)}
    (within : ∀ word ∈ words, word.1 < stride) :
    Bench.writeAll attached clock
        (words.map (addressed index)) =
      attached.put index <$> attached.dma.channels[index].writeAll clock attached.memory words := by
  induction words generalizing attached clock with
  | nil => exact congrArg pure (put_self attached clock).symm
  | cons word rest ih =>
      obtain ⟨first, others⟩ := List.forall_mem_cons.1 within
      have written := write_eq attached clock .word (route?_add index first) word.2
      have further (after : Channel × Clock × μ) :
          Bench.writeAll (attached.put index after).1 (attached.put index after).2
              (rest.map (addressed index)) =
            attached.put index <$> after.1.writeAll after.2.1 after.2.2 rest := by
        rw [ih _ _ others, channel_put]
        exact congrArg (· <$> _) (funext fun second => put_put attached after second)
      calc Bench.writeAll attached clock ((word :: rest).map (addressed index))
          = (Prod.snd <$> Device.write attached clock .word
              (stride * UInt32.ofNat index + word.1) word.2) >>= fun after =>
                Bench.writeAll after.1 after.2 (rest.map (addressed index)) := by
            rw [bind_map_left]
            rfl
        _ = attached.put index <$> attached.dma.channels[index].writeAll clock attached.memory
              (word :: rest) := by
            rw [written, Functor.map_map, Functor.map_map, bind_map_left, Channel.writeAll, map_bind]
            exact bind_congr fun after => further after

end Attached

/-- The word writes with which the firmware has a channel begin a transfer. -/
def program (index : Fin channelCount) (source target count control : UInt32) :
    List Bench.Command :=
  let base := stride * UInt32.ofNat index
  [.write .word (base + 0x0) source, .write .word (base + 0x4) target,
    .write .word (base + 0x8) count, .write .word (base + 0xc) (control ||| startBit)]

/-- A request of the host leaves what the firmware's four writes leave, be the channel idle, under
way, or at the end of a transfer that is brought up to date: the engine, the clock with its
deadlines, the memory, the interrupt controller and what the surroundings see but for remarks. It
does not depend on what the control register has been. While the channel is under way, both leave
what a mere read of one of its registers leaves. -/
theorem start_agrees_program {bench : Bench (Attached μ)}
    (reached : Reached bench.device bench.clock) (index : Fin channelCount)
    (source target count control : UInt32) :
    let requested := Prod.snd <$> startOn bench index source target count control
    let programmed := Prod.snd <$> bench.performAll (program index source target count control)
    requested.Agrees Event.isRemark programmed ∧
      ((bench.device.dma.channels[index].catchUp bench.clock bench.device.memory).value.1.isActive
          = true →
        ∀ (width : Width) (address offset : UInt32), route? address = some (index, offset) →
          programmed.Agrees Event.isRemark (Prod.snd <$> bench.read width address)) := by
  intro requested programmed
  obtain ⟨-, consistent⟩ := reached.isOrderly index
  have within : ∀ word ∈ Channel.requestWords source target count control, word.1 < stride := by
    simp [Channel.requestWords, stride]
  have writes := bench.performAll_words
    ((Channel.requestWords source target count control).map (addressed index))
  rw [Attached.writeAll_channel _ _ within] at writes
  have starts := bench.snd_act fun attached clock =>
    attached.start clock index source target count control
  have started : Prod.snd <$> bench.device.start bench.clock index source target count control =
      bench.device.put index <$> (Prod.snd <$> bench.device.dma.channels[index].start bench.clock
        bench.device.memory source target count control) := by
    rw [Attached.start_eq _ _ (channel?_val index), Functor.map_map, Functor.map_map]
    rfl
  rw [started] at starts
  have same : requested.Agrees Event.isRemark programmed := by
    have settled := bench.settle_agrees
      ((Channel.start_agrees_writeAll consistent bench.clock bench.device.memory source target count
        control).map (bench.device.put index))
    rw [← starts, ← writes] at settled
    exact settled
  refine ⟨same, fun active width address offset there => same.symm.trans ?_⟩
  have looked := read_settles bench width there
  rw [Channel.start_of_active active, Functor.map_map, Functor.map_map] at starts
  have requests : requested = bench.settle (bench.device.put index <$> Run.ofTraced
    (bench.device.dma.channels[index].catchUp bench.clock bench.device.memory)) := starts
  rw [requests]
  exact looked.symm

/-- A byte that could not be read has left its error bit behind when the next transfer begins. -/
theorem start_agrees_program_stale :
    let bench : Bench (Attached Ram) :=
      { clock := {}, device := ⟨initial 0, Ram.ofList [1, 2, 3, 4]⟩ }
    ∃ failed, (startOn bench 0 4 0 1 0).outcome = .ok (.ok (), failed) ∧
      failed.device.dma.channels[(0 : Fin channelCount)].Shows errorBit ∧
      (Prod.snd <$> startOn failed 0 0 2 2 0).Agrees Event.isRemark
        (Prod.snd <$> failed.performAll (program 0 0 2 2 0)) := by
  have fails : ∃ failed : Bench (Attached Ram),
      (startOn { clock := {}, device := ⟨initial 0, Ram.ofList [1, 2, 3, 4]⟩ } 0 4 0 1 0).outcome
        = .ok (.ok (), failed) ∧
      failed.device.dma.channels[(0 : Fin channelCount)].Shows errorBit ∧
      (Attached.perform ⟨initial 0, Ram.ofList [1, 2, 3, 4]⟩ {} (.start 0 4 0 1 0)).outcome
        = .ok (failed.device, failed.clock) := ⟨_, rfl, by decide, rfl⟩
  obtain ⟨failed, started, stale, performed⟩ := fails
  have reached := (Reached.start 0 {} (Ram.ofList [1, 2, 3, 4])).perform _ performed
  exact ⟨failed, started, stale, (start_agrees_program reached 0 0 2 2 0).1⟩

end Dma

end SocPeripherals
