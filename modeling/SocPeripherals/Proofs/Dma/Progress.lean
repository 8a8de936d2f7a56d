import SocPeripherals.Proofs.Dma.Plan

/-!
# What a look at a transfer shows

The units of a transfer that takes its time move when the channel is looked at. A register read
shows as many of them moved as are due by then, or the end of the transfer at the first unit that
the memory refused, whatever was read and polled before.
-/

namespace SocPeripherals

namespace Dma.Channel

variable {μ : Type} [Bus μ] {channel begun : Channel} {clock later : Clock} {memory there : μ}
  {bank : Bank registers} {request : Launch}

/-- A transfer that takes its time begins only if its deadline can be placed. -/
theorem short_of_begin (timed : channel.cyclesPerUnit ≠ 0)
    (some : channel.bank.get countIndex ≠ 0) (clock : Clock) (memory : μ) :
    (channel.begin clock memory).Ensures fun _ =>
      channel.duration (channel.bank.get countIndex) < Clock.horizon := by
  unfold begin
  dsimp only
  rw [if_pos ⟨timed, some⟩]
  refine .bind (.trivial _) fun _ _ => .bind (.except _) ?_
  intro _ placed
  exact .pure (short_of_scheduleIn placed)

/-- What a transfer that takes its time leaves when it has begun. -/
theorem launch_timed_stage (idle : channel.transfer = none) (timed : channel.cyclesPerUnit ≠ 0)
    (begins : request.bank? channel.bank = some bank) (units : bank.get countIndex ≠ 0)
    (started : (channel.launch clock memory request).outcome = .ok (begun, later, there)) :
    later.now = clock.now ∧ ∃ due signals,
      Awaiting { channel with bank } (Channel.described { channel with bank } (bank.get countIndex)
          clock.now due) ∧
        Stage { channel with bank } (Channel.described { channel with bank } (bank.get countIndex)
          clock.now due) memory 0 begun there signals := by
  have short : duration { channel with bank } (bank.get countIndex) < Clock.horizon := by
    obtain ⟨remarks, launching⟩ := launch_eq idle begins clock memory
    rw [launching] at started
    obtain ⟨_, _, done⟩ := Run.outcome_bind_eq_ok.1 started
    exact short_of_begin (by exact timed) (by exact units) clock memory _ done
  have gives := launch_gives idle begins
    (begin_timed_stage (by exact timed) (by exact units) short clock memory) ?_
  · obtain ⟨now, due, awaiting, stage⟩ := gives.ensures _ started
    exact ⟨now, due, _, awaiting, stage⟩
  · rintro value signals remarks ⟨now, due, awaiting, stage⟩
    exact ⟨now, due, awaiting, stage.preceded remarks⟩

omit [Bus μ] in
/-- Who has not been asked for more is asked for the units that are due. -/
theorem asked_dueUnits {transfer : Transfer} (fresh : transfer.moved = 0) {units : Nat}
    (few : units ≤ channel.dueBy clock transfer) :
    asked transfer units (channel.dueUnits clock transfer) = channel.dueBy clock transfer := by
  rw [asked, ← dueBy_eq, fresh]
  exact Nat.max_eq_right few

/-- A read answers with the register as it is afterwards. -/
theorem value_read {width : Width} {address : UInt32} {selection : Selection registers}
    (found : Selection.find? registers width address = some selection) (channel : Channel)
    (clock : Clock) (memory : μ) :
    let seen := (channel.read clock memory width address).value
    seen.1 = selection.lane.extract (seen.2.1.bank.get selection.index) := by
  have access : ∀ index : Fin registers.length, (registers.get index).access = .readWrite := by
    decide
  unfold read
  rw [Traced.value_bind]
  dsimp only
  rw [Traced.value_bind, Selection.value_noted, found]
  dsimp only
  unfold Bank.read Selection.register
  rw [access]
  rfl

/-- Every read shows exactly how far a transfer has come. When so many cycles have gone by since it
began, in whatever steps and with whatever reads and polls on the way, the units that are due by
then have been moved, if the memory took them all, and the transfer is under way until they are all
units. If the memory refused one of them, the transfer has ended there with the error bit set. -/
theorem read_shows_progress {waits : List Wait} {width : Width} {address : UInt32}
    {selection : Selection registers} (idle : channel.transfer = none)
    (timed : channel.cyclesPerUnit ≠ 0) (begins : request.bank? channel.bank = some bank)
    (units : bank.get countIndex ≠ 0)
    (started : (channel.launch clock memory request).outcome = .ok (begun, later, there))
    (brief : elapsed waits < Clock.horizon.toNat)
    (found : Selection.find? registers width address = some selection) :
    let plan := Plan.ofBank bank
    let due := min (elapsed waits / channel.cyclesPerUnit.toNat) plan.count.toNat
    let seen : Run Signal (UInt32 × Channel × Clock × μ) := do
      let (last, latest, afterwards) ← begun.waitAll later there waits
      last.read latest afterwards width address
    ∃ (value : UInt32) (after : Channel) (latest : Clock) (afterwards : μ) (stop : Nat),
      seen.outcome = .ok (value, after, latest, afterwards) ∧
      (latest.now - clock.now).toNat = elapsed waits ∧
      value = selection.lane.extract (after.bank.get selection.index) ∧
      plan.StopsAt memory stop ∧
      (due ≤ stop → afterwards = plan.memoryAfter memory due ∧ after.HasMoved plan due) ∧
      (stop < due → afterwards = plan.memoryAfter memory (stop + 1) ∧
        after.HasFailedAt plan stop) := by
  intro plan due seen
  obtain ⟨now, deadline, signals, awaiting, stage⟩ :=
    launch_timed_stage idle timed begins units started
  have fresh : lasted later (Channel.described { channel with bank } (bank.get countIndex)
      clock.now deadline) = 0 := by
    change (later.now - clock.now).toNat = 0
    rw [now, UInt64.sub_self]
    rfl
  have waited := awaiting.waits_stage stage waits (by rwa [fresh, Nat.zero_add])
  rw [fresh, Nat.zero_add] at waited
  obtain ⟨⟨last, latest, afterwards⟩, done, lasts, asked, few, stage⟩ := waited
  rw [Nat.zero_max] at few
  have read := stage.read awaiting.performs.timed latest width address
  rw [asked_dueUnits rfl few, dueBy, lasts] at read
  obtain ⟨stop, stops⟩ := plan.exists_stopsAt memory
  obtain ⟨start, flawless⟩ := Launch.bits begins
  refine ⟨(last.read latest afterwards width address).value.1,
    (last.read latest afterwards width address).value.2.1,
    (last.read latest afterwards width address).value.2.2.1,
    (last.read latest afterwards width address).value.2.2.2, stop,
    congrArg Run.outcome (Run.bind_of_ok done _), ?_, value_read found _ _ _, stops, ?_, ?_⟩
  · rw [(read_step last latest afterwards width address).serves.follows.now]
    exact lasts
  · intro ahead
    exact read.hasMoved start flawless fun number below =>
      stops.taken number (below.trans_le ahead)
  · exact read.hasFailedAt stops

/-- A transfer of four bytes to the end of a memory that takes only two of them, seen when three are
due. -/
theorem read_shows_progress_refused :
    let channel : Channel := { index := 0, source := 7, cyclesPerUnit := 3 }
    let memory := Ram.ofList [1, 2, 3, 4, 5, 6, 7, 8]
    let seen : Run Signal (UInt32 × Channel × Clock × Ram) := do
      let (begun, later, there) ← channel.launch {} memory (.host 0 6 4 0)
      let (last, latest, afterwards) ← begun.waitAll later there [.pass 4, .read .word 0, .pass 5]
      last.read latest afterwards .word 8
    ∃ after latest,
      seen.outcome = .ok (2, after, latest, Ram.ofList [1, 2, 3, 4, 5, 6, 1, 2]) ∧
      after.HasFailedAt ⟨.byte, 0, 6, 1, 1, 4⟩ 2 := by
  have started : ∃ begun later there,
      (Channel.launch { index := 0, source := 7, cyclesPerUnit := 3 } {}
        (Ram.ofList [1, 2, 3, 4, 5, 6, 7, 8]) (.host 0 6 4 0)).outcome
          = .ok (begun, later, there) := ⟨_, _, _, rfl⟩
  have brief : elapsed [.pass 4, .read .word 0, .pass 5] < Clock.horizon.toNat := by decide
  have found : Selection.find? registers .word 8 = some (.whole registers countIndex) := rfl
  have known : Plan.StopsAt ⟨.byte, 0, 6, 1, 1, 4⟩ (Ram.ofList [1, 2, 3, 4, 5, 6, 7, 8]) 2 :=
    ⟨by decide, by decide, by decide⟩
  intro channel memory seen
  obtain ⟨begun, later, there, started⟩ := started
  obtain ⟨value, after, latest, afterwards, stop, done, -, answer, stops, -, refused⟩ :=
    read_shows_progress rfl (by decide) rfl (by decide) started brief found
  obtain rfl := stops.unique known
  obtain ⟨contents, failed⟩ := refused (by decide)
  have left : after.bank.get countIndex = 2 := UInt32.toNat_inj.1 failed.stands.left
  have shown : value = 2 := by
    rw [answer, Selection.index_whole, left]
    rfl
  refine ⟨after, latest, ?_, failed⟩
  rw [← shown]
  exact (congrArg Run.outcome (Run.bind_of_ok started _)).trans (done.trans (by rw [contents]; rfl))

end Dma.Channel

end SocPeripherals
