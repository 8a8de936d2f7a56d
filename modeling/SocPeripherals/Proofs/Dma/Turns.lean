import SocPeripherals.Proofs.Dma.Atomic

/-!
# The turns in the life of a channel

A transfer begins, and later it ends, or a reset clears it away. Which of these turns an operation
takes is read off the registers and the memory: a transfer begins where an idle channel is asked for
one, and ends where all its units have been moved or the memory refuses one. From the last turn
alone follows what the control register shows and whether a transfer is under way, and the channel
asks for its interrupt once for each transfer that ends.
-/

namespace SocPeripherals

namespace Dma

/-- What happens to the transfers of a channel. -/
inductive Turn where
  | begun
  /-- All units have been moved, or the memory has refused one. -/
  | ended (refused : Bool)
  | cleared
deriving DecidableEq, Repr

namespace Turn

/-- The turn is the end of a transfer. -/
def isEnd : Turn → Bool
  | ended _ => true
  | begun | cleared => false

/-- A transfer begins only when none is under way, and only one that is under way ends. -/
def MayPrecede (last : Turn) : Turn → Prop
  | begun => last ≠ begun
  | ended _ => last = begun
  | cleared => True

instance (last next : Turn) : Decidable (last.MayPrecede next) := by
  cases next <;> unfold MayPrecede <;> infer_instance

end Turn

variable {μ : Type}

/-- How a transfer of so many units ends that has come so far, if it does. -/
def endings (total : UInt32) (progress : Transfer.Progress μ) : List Turn :=
  if progress.refusal.isSome then [.ended true]
  else if progress.position.moved = total then [.ended false]
  else []

namespace Channel

/-- Some of the given control bits are set. -/
def Shows (channel : Channel) (bits : UInt32) : Prop := channel.bank.get controlIndex &&& bits ≠ 0

instance (channel : Channel) (bits : UInt32) : Decidable (channel.Shows bits) :=
  inferInstanceAs (Decidable (_ ≠ _))

/-- What the last turn says of a channel. -/
structure Lives (last : Turn) (channel : Channel) : Prop where
  active : channel.isActive = true ↔ last = .begun
  start : channel.Shows startBit ↔ last = .begun
  error : channel.Shows errorBit ↔ last = .ended true
  progress : ∀ transfer ∈ channel.transfer, transfer.moved < transfer.total ∧
    channel.bank.get countIndex + transfer.moved = transfer.total

/-- What an operation leaves of a channel that has taken a last turn, by the turns it takes. -/
structure Takes (last : Turn) (source : UInt8) (turns : List Turn) (after : Channel)
    (signals : List Signal) : Prop where
  chain : (last :: turns).IsChain Turn.MayPrecede
  lives : after.Lives (turns.getLastD last)
  origin : after.source = source
  told : signals.filterMap Signal.interrupt? = (turns.filter Turn.isEnd).map fun _ => source

variable {channel between after : Channel} {transfer : Transfer} {last : Turn} {source : UInt8}
  {turns more : List Turn} {signals further : List Signal} {clock : Clock} {memory : μ}

theorem Takes.trans (first : Takes last source turns between signals)
    (second : Takes (turns.getLastD last) source more after further) :
    Takes last source (turns ++ more) after (signals ++ further) where
  chain := isChain_append first.chain second.chain
  lives := by
    have last_append : (turns ++ more).getLastD last = more.getLastD (turns.getLastD last) := by
      simp
    rw [last_append]
    exact second.lives
  origin := second.origin
  told := by
    rw [List.filterMap_append, first.told, second.told, List.filter_append, List.map_append]

/-- An operation that takes no turn. -/
theorem Takes.none (lives : channel.Lives last)
    (quiet : signals.filterMap Signal.interrupt? = []) :
    Takes last channel.source [] channel signals where
  chain := .singleton last
  lives := lives
  origin := rfl
  told := quiet

/-- Remarks are not requests for interrupts. -/
theorem Takes.remarked (takes : Takes last source turns after signals)
    (quiet : further.filterMap Signal.interrupt? = []) :
    Takes last source turns after (signals ++ further) where
  chain := takes.chain
  lives := takes.lives
  origin := takes.origin
  told := by rw [List.filterMap_append, quiet, List.append_nil, takes.told]

/-! ## The control register -/

theorem start_ne_zero_iff (control : UInt32) :
    control &&& startBit ≠ 0 ↔ control.toBitVec.getLsbD 10 = true :=
  and_bit_ne_zero_iff startBit control 10 (by decide) (by decide)

theorem error_ne_zero_iff (control : UInt32) :
    control &&& errorBit ≠ 0 ↔ control.toBitVec.getLsbD 15 = true :=
  and_bit_ne_zero_iff errorBit control 15 (by decide) (by decide)

/-- The control register of a transfer that has ended. -/
theorem control_concluded (channel : Channel) (transfer : Transfer)
    (progress : Transfer.Progress μ) :
    (channel.concluded transfer progress).bank.get controlIndex
      = if progress.refusal.isSome then
          channel.bank.get controlIndex &&& ~~~startBit ||| errorBit
        else channel.bank.get controlIndex &&& ~~~startBit := by
  have kept := get_control_arrive channel transfer progress.position
  unfold concluded Bank.setBits Bank.clearBits
  simp only [Registers.set_eq_put]
  split
  · rw [Bank.get_put_self, Bank.get_put_self, kept]
  · rw [Bank.get_put_of_ne _ (by decide), Bank.get_put_self, kept]

theorem not_start_concluded (channel : Channel) (transfer : Transfer)
    (progress : Transfer.Progress μ) : ¬ (channel.concluded transfer progress).Shows startBit := by
  rw [Shows, start_ne_zero_iff, control_concluded]
  split <;> simp [startBit, errorBit]

theorem error_concluded (channel : Channel) (transfer : Transfer)
    (progress : Transfer.Progress μ) :
    (channel.concluded transfer progress).Shows errorBit ↔
      progress.refusal.isSome = true ∨ channel.Shows errorBit := by
  rw [Shows, Shows, error_ne_zero_iff, error_ne_zero_iff, control_concluded]
  split
  next refused => simp [refused, startBit, errorBit]
  next taken => simp [taken, startBit]

/-! ## Moving units -/

/-- A transfer is under way, of which some units may have been moved. -/
structure Carries (channel : Channel) (transfer : Transfer) : Prop where
  active : channel.transfer = some transfer
  start : channel.Shows startBit
  flawless : ¬ channel.Shows errorBit
  within : transfer.moved ≤ transfer.total
  balance : channel.bank.get countIndex + transfer.moved = transfer.total

theorem Lives.carries (lives : channel.Lives last) (active : channel.transfer = some transfer) :
    last = .begun ∧ channel.Carries transfer := by
  have begun : last = .begun := lives.active.1 (by simp [isActive, active])
  subst begun
  obtain ⟨few, balance⟩ := lives.progress transfer active
  refine ⟨rfl, active, lives.start.2 rfl, ?_, UInt32.le_of_lt few, balance⟩
  intro failed
  cases lives.error.1 failed

theorem get_count_arrive (channel : Channel) (transfer : Transfer)
    (position : Transfer.Position) :
    (channel.arrive transfer position).bank.get countIndex = position.left := by
  unfold arrive
  rw [Registers.set_eq_put, Bank.get_put_self]

theorem arrive_lives (carries : channel.Carries transfer) {position : Transfer.Position}
    (few : position.moved < transfer.total)
    (balance : position.left + position.moved = transfer.total) :
    (channel.arrive transfer position).Lives .begun where
  active := iff_of_true rfl rfl
  start := by
    rw [Shows, get_control_arrive]
    exact iff_of_true carries.start rfl
  error := by
    rw [Shows, get_control_arrive]
    exact iff_of_false carries.flawless nofun
  progress := by
    rintro _ ⟨⟩
    rw [get_count_arrive]
    exact ⟨few, balance⟩

theorem concluded_lives (carries : channel.Carries transfer) (progress : Transfer.Progress μ) :
    (channel.concluded transfer progress).Lives (.ended progress.refusal.isSome) where
  active := iff_of_false Bool.false_ne_true nofun
  start := iff_of_false (not_start_concluded channel transfer progress) nofun
  error := by
    rw [error_concluded, or_iff_left carries.flawless]
    simp
  progress transfer active := absurd active (by simp [concluded])

variable [Bus μ]

/-- Every unit that is moved is one less to be moved. -/
theorem balance_moveUnits (transfer : Transfer) (count : Nat) (position : Transfer.Position)
    (memory : μ) (calls : List BusCall) :
    let there := (transfer.moveUnits count position memory calls).position
    there.left + there.moved = position.left + position.moved := by
  induction count generalizing position memory calls with
  | zero => rfl
  | succ count ih =>
      unfold Transfer.moveUnits
      rcases transfer.moved_moveUnit position memory calls with ⟨going, here⟩ | ⟨refused, here⟩
      · simp only [going]
        rw [here, ih]
        unfold Transfer.advance
        grind
      · obtain ⟨refusal, refusing⟩ := Option.ne_none_iff_exists'.1 refused
        simp only [refusing]
        rw [here]

/-- No unit is moved beyond the last, and the units moved and the units left are all units. -/
theorem reach_balanced (within : transfer.moved ≤ transfer.total)
    (balance : channel.bank.get countIndex + transfer.moved = transfer.total) (memory : μ)
    (target : UInt32) :
    let there := (channel.reach transfer memory (transfer.outstanding target)).position
    there.moved ≤ transfer.total ∧ there.left + there.moved = transfer.total := by
  obtain ⟨taken, bound, there, -⟩ := transfer.moved_moveUnits (transfer.outstanding target)
    (channel.position transfer) memory []
  obtain ⟨sum, most⟩ := toNat_add_taken within bound
  constructor
  · rw [reach, there, UInt32.le_iff_toNat_le]
    exact sum ▸ most
  · exact (balance_moveUnits transfer _ (channel.position transfer) memory []).trans balance

/-- Moving units takes the turn that the memory and the registers call for. -/
theorem advance_takes (carries : channel.Carries transfer) (clock : Clock) (memory : μ)
    (target : UInt32) :
    Takes .begun channel.source
      (endings transfer.total (channel.reach transfer memory (transfer.outstanding target)))
      (channel.advance clock memory target).value.1
      (channel.advance clock memory target).signals := by
  obtain ⟨-, -, going, finished⟩ := advance_spec carries.active clock memory target
  obtain ⟨within, balance⟩ := reach_balanced carries.within carries.balance memory target
  generalize channel.reach transfer memory (transfer.outstanding target) = progress at *
  by_cases done : progress.refusal ≠ none ∨ progress.position.moved = transfer.total
  · obtain ⟨ended, told⟩ := finished done
    have turn : endings transfer.total progress = [.ended progress.refusal.isSome] := by
      unfold endings
      cases refused : progress.refusal with
      | some refusal => rfl
      | none =>
          rw [refused] at done
          exact if_pos (done.resolve_left fun refused => refused rfl)
    rw [turn, ended]
    constructor
    · exact List.isChain_cons_cons.2 ⟨rfl, .singleton _⟩
    · exact concluded_lives carries progress
    · rfl
    · exact told
  · obtain ⟨goes, told⟩ := going done
    rw [not_or, not_not] at done
    obtain ⟨untold, few⟩ := done
    have turn : endings transfer.total progress = [] := by simp [endings, untold, few]
    rw [turn, goes]
    constructor
    · exact .singleton _
    · exact arrive_lives carries (UInt32.lt_of_le_of_ne within few) balance
    · rfl
    · exact told

/-! ## The turns of an operation -/

/-- The turns that catching up takes. -/
def catchUpTurns (channel : Channel) (clock : Clock) (memory : μ) : List Turn :=
  match channel.transfer with
  | none => []
  | some transfer =>
      if channel.cyclesPerUnit = 0 then []
      else
        endings transfer.total (channel.reach transfer memory
          (transfer.outstanding (channel.dueUnits clock transfer)))

/-- The turns that beginning a transfer takes. One that takes no time is over at once. -/
def beginTurns (channel : Channel) (memory : μ) : List Turn :=
  .begun ::
    if channel.cyclesPerUnit ≠ 0 ∧ channel.bank.get countIndex ≠ 0 then []
    else endings (channel.bank.get countIndex) (channel.carriedOut memory)

/-- The turns that a request for a transfer takes, which is refused while another is under way. -/
def requestTurns (channel : Channel) (memory : μ) (launch : Launch) : List Turn :=
  if channel.isActive then []
  else
    match launch.bank? channel.bank with
    | none => []
    | some bank => { channel with bank }.beginTurns memory

/-- The turns that a request takes once the channel has caught up. -/
def freshTurns (channel : Channel) (clock : Clock) (memory : μ) (launch : Launch) : List Turn :=
  (channel.catchUp clock memory).value.1.requestTurns
    (channel.catchUp clock memory).value.2.2 launch

/-- The turns that a request takes, those of catching up first. -/
def launchTurns (channel : Channel) (clock : Clock) (memory : μ) (launch : Launch) : List Turn :=
  channel.catchUpTurns clock memory ++ channel.freshTurns clock memory launch

/-- The turns that a poll takes. -/
def pollTurns (channel : Channel) (clock : Clock) (memory : μ) : List Turn :=
  match channel.transfer with
  | none => []
  | some transfer =>
      if (clock.claim transfer.due).1 then channel.catchUpTurns clock memory else []

theorem catchUp_takes (lives : channel.Lives last) (clock : Clock) (memory : μ) :
    Takes last channel.source (channel.catchUpTurns clock memory)
      (channel.catchUp clock memory).value.1 (channel.catchUp clock memory).signals := by
  unfold catchUpTurns catchUp
  cases active : channel.transfer with
  | none => exact .none lives rfl
  | some transfer =>
      obtain ⟨rfl, carries⟩ := lives.carries active
      dsimp only
      split
      next => exact .none lives rfl
      next => exact advance_takes carries clock memory _

omit [Bus μ] in
/-- A transfer begins before it takes its other turns. -/
theorem Takes.begins (idle : last ≠ .begun) (takes : Takes .begun source turns after signals)
    (quiet : further.filterMap Signal.interrupt? = []) :
    Takes last source (.begun :: turns) after (further ++ signals) where
  chain := List.isChain_cons_cons.2 ⟨idle, takes.chain⟩
  lives := by
    rw [List.getLastD_cons]
    exact takes.lives
  origin := takes.origin
  told := by
    rw [List.filterMap_append, quiet, List.nil_append]
    exact takes.told

/-- The transfer that the registers describe, with nothing moved yet. -/
theorem carries_described (start : channel.Shows startBit) (flawless : ¬ channel.Shows errorBit)
    (startedAt : UInt64) (due : Option Deadline) :
    let transfer := channel.described (channel.bank.get countIndex) startedAt due
    Carries { channel with transfer := some transfer } transfer where
  active := rfl
  start := start
  flawless := flawless
  within := UInt32.zero_le
  balance := UInt32.add_zero _

/-- A transfer begins on an idle channel whose control register is set for it. -/
theorem begin_takes (idle : last ≠ .begun) (start : channel.Shows startBit)
    (flawless : ¬ channel.Shows errorBit) (clock : Clock) (memory : μ) :
    (channel.begin clock memory).Tells fun (after, _, _) signals =>
      Takes last channel.source (channel.beginTurns memory) after signals := by
  unfold beginTurns
  by_cases timed : channel.cyclesPerUnit ≠ 0 ∧ channel.bank.get countIndex ≠ 0
  · unfold begin
    dsimp only
    rw [if_pos timed, if_pos timed]
    refine .bind (.signal _) ?_
    rintro _ _ rfl
    refine .bind (.except _) ?_
    rintro ⟨due, later⟩ _ ⟨-, rfl⟩
    apply Run.Tells.pure
    have carries := carries_described start flawless later.now (some due)
    have begun : Lives .begun { channel with
        transfer := channel.described (channel.bank.get countIndex) later.now (some due) } := by
      constructor
      · exact iff_of_true rfl rfl
      · exact iff_of_true start rfl
      · exact iff_of_false flawless nofun
      · rintro _ ⟨⟩
        exact ⟨UInt32.pos_iff_ne_zero.2 timed.2, carries.balance⟩
    exact .begins idle (.none begun rfl) rfl
  · rw [begin_at_once timed, if_neg timed]
    refine .bind (.signal _) ?_
    rintro _ _ rfl
    refine (Run.Tells.traced _).imp ?_
    rintro _ _ ⟨rfl, rfl⟩
    have whole := advance_takes (carries_described start flawless clock.now none) clock memory
      (channel.bank.get countIndex)
    have asked : (channel.described (channel.bank.get countIndex) clock.now none).outstanding
        (channel.bank.get countIndex) = (channel.bank.get countIndex).toNat := by
      rw [Transfer.outstanding_eq]
      exact Nat.min_self _
    rw [asked] at whole
    change Takes .begun channel.source (endings (channel.bank.get countIndex)
      (channel.reach _ memory (channel.bank.get countIndex).toNat)) _ _ at whole
    rw [reach_described] at whole
    exact whole.begins idle rfl

/-! ## Requests for transfers -/

theorem requestTurns_of_active (active : channel.isActive = true) (memory : μ) (launch : Launch) :
    channel.requestTurns memory launch = [] :=
  if_pos active

theorem requestTurns_of_none {launch : Launch} (ignored : launch.bank? channel.bank = none)
    (memory : μ) : channel.requestTurns memory launch = [] := by
  unfold requestTurns
  rw [ignored, ite_self]

theorem requestTurns_of_some (inactive : ¬ channel.isActive = true) {launch : Launch}
    {bank : Bank registers} (begins : launch.bank? channel.bank = some bank) (memory : μ) :
    channel.requestTurns memory launch = beginTurns { channel with bank } memory := by
  unfold requestTurns
  rw [if_neg inactive, begins]

/-- A write to the control register of an idle channel is a request if it raises the start bit. -/
theorem requestTurns_of_control (inactive : ¬ channel.isActive = true) {width : Width}
    {address value : UInt32} {selection : Selection registers}
    (found : Selection.find? registers width address = some selection)
    (control : selection.index = controlIndex) (memory : μ) :
    channel.requestTurns memory (.store width address value) =
      let (change, bank) := channel.bank.write selection value
      let kept := bank.set controlIndex ((change.new &&& ~~~errorBit) ||| (change.old &&& errorBit))
      if change.rising &&& startBit ≠ 0 then
        beginTurns { channel with bank := kept.clearBits controlIndex errorBit } memory
      else [] := by
  dsimp only
  split
  next rises =>
    refine requestTurns_of_some inactive ?_ memory
    simp [Launch.bank?, found, control, rises]
  next stays =>
    refine requestTurns_of_none ?_ memory
    simp only [Launch.bank?, found, Option.bind_eq_bind, Option.bind_some]
    exact if_neg fun rises => stays rises.2

omit [Bus μ] in
theorem control_set (bank : Bank registers) (value : UInt32) :
    (bank.set controlIndex value).get controlIndex = value := by
  rw [Registers.set_eq_put, Bank.get_put_self]

/-- What the host asks for shows the start of a transfer and no error. -/
theorem bits_of_host (control : UInt32) :
    (control ||| startBit) &&& ~~~errorBit &&& startBit ≠ 0 ∧
      ¬ (control ||| startBit) &&& ~~~errorBit &&& errorBit ≠ 0 := by
  rw [start_ne_zero_iff, error_ne_zero_iff]
  simp [startBit, errorBit]

/-- A write that raises the start bit leaves it and clears the error bit. -/
theorem bits_of_rising {old new : UInt32} (rises : Change.rising ⟨old, new⟩ &&& startBit ≠ 0) :
    (new &&& ~~~errorBit ||| old &&& errorBit) &&& ~~~errorBit &&& startBit ≠ 0 ∧
      ¬ (new &&& ~~~errorBit ||| old &&& errorBit) &&& ~~~errorBit &&& errorBit ≠ 0 := by
  rw [start_ne_zero_iff] at rises
  rw [start_ne_zero_iff, error_ne_zero_iff]
  simp [Change.rising] at rises
  simp [errorBit, rises.2]

/-- The error bit is not written. -/
theorem error_of_kept (old new : UInt32) :
    (new &&& ~~~errorBit ||| old &&& errorBit) &&& errorBit ≠ 0 ↔ old &&& errorBit ≠ 0 := by
  rw [error_ne_zero_iff, error_ne_zero_iff]
  simp [errorBit]

/-- A write that does not raise the start bit leaves it clear where it is. -/
theorem start_of_staying {old new : UInt32} (idle : ¬ old &&& startBit ≠ 0)
    (stays : ¬ Change.rising ⟨old, new⟩ &&& startBit ≠ 0) :
    ¬ (new &&& ~~~errorBit ||| old &&& errorBit) &&& startBit ≠ 0 := by
  rw [start_ne_zero_iff] at idle stays
  rw [start_ne_zero_iff]
  simp at idle
  simp [Change.rising, idle] at stays
  simp [errorBit, stays]

omit [Bus μ] in
/-- An idle channel has not begun a transfer. -/
theorem Lives.idle (lives : channel.Lives last) (inactive : ¬ channel.isActive = true) :
    last ≠ .begun ∧ ¬ channel.Shows startBit := by
  have idle : last ≠ .begun := mt lives.active.2 inactive
  exact ⟨idle, mt lives.start.1 idle⟩

omit [Bus μ] in
/-- Storing into the registers of an idle channel. -/
theorem Lives.stored (lives : channel.Lives last) (inactive : ¬ channel.isActive = true)
    {bank : Bank registers} (start : ¬ Shows { channel with bank } startBit)
    (error : Shows { channel with bank } errorBit ↔ channel.Shows errorBit) :
    Lives last { channel with bank } where
  active := lives.active
  start := iff_of_false start (lives.idle inactive).1
  error := error.trans lives.error
  progress transfer active := by
    have idle : channel.transfer = none := by simpa [isActive] using inactive
    exact absurd active (by simp [idle])

theorem start_takes (lives : channel.Lives last) (clock : Clock) (memory : μ)
    (source target count control : UInt32) :
    (channel.start clock memory source target count control).Tells
      fun (_, after, _, _) signals => Takes last channel.source
        (channel.launchTurns clock memory (.host source target count control)) after signals := by
  have caughtUp := catchUp_takes lives clock memory
  unfold start launchTurns freshTurns
  refine .bind (.traced _) ?_
  rintro _ _ ⟨rfl, rfl⟩
  generalize (channel.catchUp clock memory).value = caught at caughtUp ⊢
  obtain ⟨between, later, there⟩ := caught
  dsimp only at caughtUp ⊢
  split
  next active =>
    apply Run.Tells.pure
    rw [requestTurns_of_active active, List.append_nil, List.append_nil]
    exact caughtUp
  next inactive =>
    rw [requestTurns_of_some inactive rfl]
    obtain ⟨started, flawless⟩ := bits_of_host control
    refine .bind (begin_takes (caughtUp.lives.idle inactive).1 ?_ ?_ _ _) ?_
    · rw [Shows, control_set]
      exact started
    · rw [Shows, control_set]
      exact flawless
    · rintro ⟨after, last, memory⟩ signals takes
      apply Run.Tells.pure
      dsimp only at takes
      rw [caughtUp.origin] at takes
      rw [List.append_nil]
      exact caughtUp.trans takes

/-- A write to the control register of an idle channel. -/
theorem controlled_takes (lives : channel.Lives last) (inactive : ¬ channel.isActive = true)
    {selection : Selection registers} (control : selection.index = controlIndex) (clock : Clock)
    (memory : μ) (value : UInt32) :
    let (change, bank) := channel.bank.write selection value
    let kept := bank.set controlIndex ((change.new &&& ~~~errorBit) ||| (change.old &&& errorBit))
    (controlled { channel with bank } clock memory change).Tells fun (after, _, _) signals =>
      Takes last channel.source
        (if change.rising &&& startBit ≠ 0 then
          beginTurns { channel with bank := kept.clearBits controlIndex errorBit } memory
        else []) after signals := by
  obtain ⟨idle, unset⟩ := lives.idle inactive
  have old : (channel.bank.write selection value).1.old = channel.bank.get controlIndex :=
    congrArg channel.bank.get control
  generalize channel.bank.write selection value = written at old ⊢
  obtain ⟨⟨before, new⟩, bank⟩ := written
  obtain rfl : before = channel.bank.get controlIndex := old
  dsimp only
  unfold controlled
  dsimp only
  split
  next rises =>
    obtain ⟨started, flawless⟩ := bits_of_rising rises
    refine begin_takes idle ?_ ?_ clock memory
    · rw [Shows, Bank.clearBits, control_set, control_set]
      exact started
    · rw [Shows, Bank.clearBits, control_set, control_set]
      exact flawless
  next stays =>
    apply Run.Tells.pure
    have stored (kept : UInt32) (start : ¬ kept &&& startBit ≠ 0)
        (error : kept &&& errorBit ≠ 0 ↔ channel.Shows errorBit) :
        Lives last { channel with bank := bank.set controlIndex kept } := by
      refine lives.stored inactive ?_ ?_
      · rw [Shows, control_set]
        exact start
      · rw [Shows, control_set]
        exact error
    exact .none (stored _ (start_of_staying unset stays) (error_of_kept _ new)) rfl

/-- A write to another register of an idle channel. -/
theorem write_other_lives (lives : channel.Lives last) (inactive : ¬ channel.isActive = true)
    {selection : Selection registers} (other : selection.index ≠ controlIndex) (value : UInt32) :
    Lives last { channel with bank := (channel.bank.write selection value).2 } := by
  have kept : (channel.bank.write selection value).2.get controlIndex
      = channel.bank.get controlIndex := Bank.get_put_of_ne _ other _
  refine lives.stored inactive ?_ ?_
  · rw [Shows, kept]
    exact (lives.idle inactive).2
  · rw [Shows, kept]
    exact .rfl

theorem write_takes (lives : channel.Lives last) (clock : Clock) (memory : μ) (width : Width)
    (address value : UInt32) :
    (channel.write clock memory width address value).Tells fun (after, _, _) signals =>
      Takes last channel.source (channel.launchTurns clock memory (.store width address value))
        after signals := by
  have caughtUp := catchUp_takes lives clock memory
  have quiet := (noted_quiet width address).2
  unfold write launchTurns freshTurns
  refine .bind (.traced _) ?_
  rintro _ _ ⟨rfl, rfl⟩
  generalize (channel.catchUp clock memory).value = caught at caughtUp ⊢
  obtain ⟨between, later, there⟩ := caught
  have seen := caughtUp.remarked quiet
  refine .bind (.traced _) ?_
  rintro _ _ ⟨rfl, rfl⟩
  rw [Selection.value_noted]
  dsimp only at seen ⊢
  cases found : Selection.find? registers width address with
  | none =>
      have ignored : (Launch.store width address value).bank? between.bank = none := by
        simp [Launch.bank?, found]
      apply Run.Tells.pure
      rw [requestTurns_of_none ignored, List.append_nil, List.append_nil]
      exact seen
  | some selection =>
      dsimp only
      split
      next active =>
        rw [requestTurns_of_active active, List.append_nil]
        refine .bind (.signal _) ?_
        rintro _ _ rfl
        apply Run.Tells.pure
        rw [List.append_nil, ← List.append_assoc]
        exact seen.remarked rfl
      next inactive =>
        split
        next control =>
          refine (controlled_takes caughtUp.lives inactive control later there value).imp ?_
          rintro ⟨after, final, memory⟩ signals takes
          dsimp only at takes ⊢
          rw [requestTurns_of_control inactive found control, ← List.append_assoc]
          rw [caughtUp.origin] at takes
          exact seen.trans takes
        next other =>
          have ignored : (Launch.store width address value).bank? between.bank = none := by
            simp [Launch.bank?, found, other]
          apply Run.Tells.pure
          rw [requestTurns_of_none ignored, List.append_nil, List.append_nil]
          exact { seen with lives := write_other_lives caughtUp.lives inactive other value }

/-! ## Other operations -/

theorem read_takes (lives : channel.Lives last) (clock : Clock) (memory : μ) (width : Width)
    (address : UInt32) :
    Takes last channel.source (channel.catchUpTurns clock memory)
      (channel.read clock memory width address).value.2.1
      (channel.read clock memory width address).signals := by
  have seen := (catchUp_takes lives clock memory).remarked (noted_quiet width address).2
  unfold read
  rw [Traced.signals_bind, Traced.value_bind]
  dsimp only
  rw [Traced.signals_bind, Traced.value_bind, Selection.value_noted, ← List.append_assoc]
  split
  next => exact seen.remarked rfl
  next selection _ =>
    rw [Registers.read_eq]
    exact seen.remarked rfl

theorem poll_takes (lives : channel.Lives last) (clock : Clock) (memory : μ) :
    Takes last channel.source (channel.pollTurns clock memory)
      (channel.poll clock memory).value.1 (channel.poll clock memory).signals := by
  unfold pollTurns poll
  cases active : channel.transfer with
  | none => exact .none lives rfl
  | some transfer =>
      dsimp only
      cases reached : (clock.claim transfer.due).1 with
      | false => exact .none lives rfl
      | true =>
          have held : Lives last { channel with
              transfer := some { transfer with due := (clock.claim transfer.due).2 } } := by
            constructor
            · exact iff_of_true rfl (lives.carries active).1
            · exact lives.start
            · exact lives.error
            · rintro _ ⟨⟩
              exact lives.progress transfer active
          have takes := catchUp_takes held clock memory
          have same : catchUpTurns { channel with
              transfer := some { transfer with due := (clock.claim transfer.due).2 } } clock memory
                = channel.catchUpTurns clock memory := by
            unfold catchUpTurns
            rw [active]
            exact congrArg (fun progress => if channel.cyclesPerUnit = 0 then []
              else endings transfer.total progress) (reach_due channel transfer memory _ _)
          rw [same] at takes
          exact takes

omit [Bus μ] in
/-- After a reset the control register is clear. -/
theorem reset_takes (resets : channel.bank.resets = (Bank.initial registers).resets)
    (last : Turn) (clock : Clock) :
    Takes last channel.source [.cleared] (channel.reset clock).1 [] where
  chain := List.isChain_cons_cons.2 ⟨trivial, .singleton _⟩
  lives := by
    have clear : (channel.reset clock).1.bank.get controlIndex = 0 := by
      have initial : channel.bank.reset = Bank.initial registers := Bank.reset_eq_initial resets
      unfold reset
      dsimp only
      rw [initial, Bank.get_initial]
      rfl
    constructor
    · exact iff_of_false Bool.false_ne_true nofun
    · rw [Shows, clear]
      exact iff_of_false (by decide) nofun
    · rw [Shows, clear]
      exact iff_of_false (by decide) nofun
    · intro transfer active
      cases active
  origin := rfl
  told := rfl

/-- A write changes the error bit of a channel that is brought up to date only with a request. -/
theorem write_error (channel : Channel) (clock : Clock) (memory : μ) (width : Width)
    (address value : UInt32) :
    (channel.write clock memory width address value).Ensures fun (after, _, _) =>
      .begun ∉ channel.freshTurns clock memory (.store width address value) →
        (after.Shows errorBit ↔ (channel.catchUp clock memory).value.1.Shows errorBit) := by
  refine (channel.write_writes clock memory width address value).imp ?_
  rintro ⟨after, later, memory'⟩ writes fresh
  cases writes with
  | missed => exact .rfl
  | busy => exact .rfl
  | control found idle here done =>
      have inactive : ¬ (channel.catchUp clock memory).value.1.isActive = true := by
        simp [isActive, idle]
      unfold freshTurns at fresh
      rw [requestTurns_of_control inactive found here] at fresh
      unfold controlled at done
      dsimp only at done fresh
      split at done
      next rises =>
        rw [if_pos rises] at fresh
        exact absurd List.mem_cons_self fresh
      next stays =>
        cases done
        rw [Shows, Shows, control_set, ← here]
        exact error_of_kept _ _
  | store _ _ other => exact iff_of_eq (congrArg (· &&& errorBit ≠ 0) (Bank.get_put_of_ne _ other _))

/-- The host is told that its request is accepted exactly if a transfer begins. -/
theorem start_accepts (channel : Channel) (clock : Clock) (memory : μ)
    (source target count control : UInt32) :
    (channel.start clock memory source target count control).Ensures fun (answer, _) =>
      answer = .ok () ↔
        .begun ∈ channel.freshTurns clock memory (.host source target count control) := by
  unfold start freshTurns
  refine .bind (.traced _) ?_
  rintro _ rfl
  dsimp only
  split
  next active =>
    rw [requestTurns_of_active active]
    exact .pure (iff_of_false nofun List.not_mem_nil)
  next inactive =>
    rw [requestTurns_of_some inactive rfl]
    exact .bind (.trivial _) fun _ _ => .pure (iff_of_true rfl List.mem_cons_self)

end Channel

end Dma

end SocPeripherals
