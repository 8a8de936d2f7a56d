import SocPeripherals.Bus.Ram
import SocPeripherals.Proofs.Late.Heard
import SocPeripherals.Proofs.Lockstep.Chronicle
import SocPeripherals.Proofs.Lockstep.Renumbered
import SocPeripherals.Proofs.Restore.Boundary

/-!
# Timers and serial interfaces used in either order

Two commands at one cycle that are for different timers or serial interfaces may be given in either
order. The instances share the clock and the interrupt controller. What either of them does there
the other cannot tell, and afterwards the clock has given out other numbers, which nobody can read.
-/

namespace SocPeripherals

namespace Block

variable {μ α β : Type} {block after : Block μ}

/-! ## The instances -/

/-- The block with what its instances share as it has been left. -/
def sharing (block : Block μ) (clock : Clock) (controller : Interrupt.Controller) : Block μ :=
  { block with clock, controller }

/-- A timer or a serial interface of the block. -/
inductive Instance where
  | timer (index : Fin timerCount)
  | uart (index : Fin uartCount)
deriving DecidableEq, Repr

namespace Instance

/-- What stands at the place of the instance. -/
abbrev Device : Instance → Type
  | .timer _ => Timer
  | .uart _ => Uart

/-- The part of the bus window that is the instance's own. -/
def part : Instance → Part
  | .timer index => .timer index
  | .uart index => .uart index

def device (block : Block μ) : (place : Instance) → place.Device
  | .timer index => block.timers[index]
  | .uart index => block.uarts[index]

/-- The deadlines that a device at the place holds. -/
def held : (place : Instance) → place.Device → Multiset Deadline
  | .timer _ => Timer.held
  | .uart _ => Uart.held

def Alike (lockstep : Clock.Lockstep) : (place : Instance) → place.Device → place.Device → Prop
  | .timer _ => Timer.Alike lockstep Eq
  | .uart _ => Uart.Alike lockstep

/-- The block with another device at the place. -/
def put (block : Block μ) : (place : Instance) → place.Device → Block μ
  | .timer index, device => { block with timers := block.timers.set index device index.isLt }
  | .uart index, device => { block with uarts := block.uarts.set index device index.isLt }

/-- What a device at the place does to itself and to the clock. -/
abbrev Action (place : Instance) (α : Type) : Type :=
  place.Device → Clock → Run Signal (α × place.Device × Clock)

/-- The action, which puts its answer in other words. -/
def Action.worded {place : Instance} (action : place.Action α) (word : α → β) : place.Action β :=
  fun device clock => do
    let (answer, after) ← action device clock
    return (word answer, after)

/-- A bus read of a device at the place. -/
def read (width : Width) (offset : UInt32) : (place : Instance) → place.Action UInt32
  | .timer _ => fun timer clock => SocPeripherals.Device.read timer clock width offset
  | .uart _ => fun uart clock => SocPeripherals.Device.read uart clock width offset

/-- A bus write to a device at the place. -/
def write (width : Width) (offset value : UInt32) : (place : Instance) → place.Action Unit
  | .timer _ => fun timer clock => SocPeripherals.Device.write timer clock width offset value
  | .uart _ => fun uart clock => SocPeripherals.Device.write uart clock width offset value

variable {place other : Instance}

theorem device_put_self (block : Block μ) (device : place.Device) :
    place.device (place.put block device) = device := by
  cases place with
  | timer index => exact Parts.getElem_set_self block.timers index device
  | uart index => exact Parts.getElem_set_self block.uarts index device

theorem device_put_of_ne (apart : place ≠ other) (block : Block μ) (device : place.Device) :
    other.device (place.put block device) = other.device block := by
  cases place with
  | timer index =>
      cases other with
      | timer number => exact Parts.getElem_set_of_ne _ _ fun same => apart (congrArg timer same)
      | uart number => rfl
  | uart index =>
      cases other with
      | timer number => rfl
      | uart number => exact Parts.getElem_set_of_ne _ _ fun same => apart (congrArg uart same)

@[simp]
theorem device_sharing (block : Block μ) (clock : Clock) (controller : Interrupt.Controller) :
    place.device (block.sharing clock controller) = place.device block := by
  cases place <;> rfl

@[simp]
theorem put_sharing (block : Block μ) (clock : Clock) (controller : Interrupt.Controller)
    (device : place.Device) : place.put (block.sharing clock controller) device
      = (place.put block device).sharing clock controller := by
  cases place <;> rfl

@[simp]
theorem memory_put (block : Block μ) (device : place.Device) :
    (place.put block device).memory = block.memory := by
  cases place <;> rfl

@[simp]
theorem misc_put (block : Block μ) (device : place.Device) :
    (place.put block device).misc = block.misc := by
  cases place <;> rfl

@[simp]
theorem dma_put (block : Block μ) (device : place.Device) :
    (place.put block device).dma = block.dma := by
  cases place <;> rfl

theorem held_le (place : Instance) (block : Block μ) :
    place.held (place.device block) ≤ block.held := by
  cases place with
  | timer index => exact Owner.held_le (.timer index) block
  | uart index => exact Owner.held_le (.uart index) block

theorem Alike.recast {lockstep another : Clock.Lockstep} {device twin : place.Device}
    (alike : place.Alike lockstep device twin)
    (recasts : lockstep.Recasts another (place.held device) (place.held twin)) :
    place.Alike another device twin := by
  cases place with
  | timer index => exact Timer.Alike.recast alike recasts
  | uart index => exact Uart.Alike.recast alike recasts

end Instance

/-- Lets an instance act. -/
def onInstance (block : Block μ) (place : Instance) (action : place.Action α) :
    Run Event (α × Block μ) := do
  let ((answer, device, clock), controller) ←
    block.controller.relay (action (place.device block) block.clock)
  return (answer, (place.put block device).sharing clock controller)

/-- Actions on clocks in lockstep do the same, and every action comes to its end. -/
structure Instance.IsSteady (place : Instance) (action : place.Action α) : Prop where
  alike {lockstep : Clock.Lockstep} {device twin : place.Device} {clock other : Clock} :
    place.Alike lockstep device twin → lockstep.clocks clock other →
      (action device clock).Matches
        (fun (answer, after, later) (answerOther, afterOther, laterOther) =>
          answer = answerOther ∧ place.Alike lockstep after afterOther ∧
            lockstep.clocks later laterOther)
        (action twin other)
  ends (device : place.Device) (clock : Clock) :
    ∃ result, (action device clock).outcome = .ok result
  uses (device : place.Device) (clock : Clock) :
    (action device clock).Ensures fun (_, after, later) =>
      Clock.Uses 1 (place.held device) (place.held after) clock later

/-! ## Commands for an instance -/

namespace Instance

variable {place : Instance}

theorem IsSteady.worded {action : place.Action α} (steady : place.IsSteady action) (word : α → β) :
    place.IsSteady (action.worded word) where
  alike devices clocks := by
    refine .bind (steady.alike devices clocks) ?_
    rintro ⟨answer, after, later⟩ ⟨_, afterOther, laterOther⟩ ⟨rfl, same⟩
    exact .pure ⟨rfl, same⟩
  ends device clock := by
    obtain ⟨result, done⟩ := steady.ends device clock
    exact ⟨_, Run.outcome_bind_eq_ok.2 ⟨result, done, rfl⟩⟩
  uses device clock := .bind (steady.uses device clock) fun _ uses => .pure uses

theorem isSteady_read (place : Instance) (width : Width) (offset : UInt32) :
    place.IsSteady (place.read width offset) := by
  cases place with
  | timer index =>
      refine ⟨fun timers clocks => ?_, fun timer clock => ⟨_, rfl⟩, fun timer clock => ?_⟩
      · refine .bind (.ofTraced (Timer.read_alike timers clocks width offset)) ?_
        rintro ⟨value, after⟩ ⟨_, afterOther⟩ ⟨same, timers⟩
        exact .pure ⟨same, timers, clocks⟩
      · refine .bind (.traced _) ?_
        rintro _ rfl
        exact .pure (Timer.read_step timer clock width offset).serves.uses
  | uart index =>
      refine ⟨fun uarts clocks => ?_, fun uart clock => ⟨_, rfl⟩, fun uart clock => ?_⟩
      · refine .bind (.ofTraced (Uart.read_alike uarts width offset)) ?_
        rintro ⟨value, after⟩ ⟨_, afterOther⟩ ⟨same, uarts⟩
        exact .pure ⟨same, uarts, clocks⟩
      · refine .bind (.traced _) ?_
        rintro _ rfl
        exact .pure (Uart.read_step uart clock width offset).serves.uses

theorem isSteady_write (place : Instance) (width : Width) (offset value : UInt32) :
    place.IsSteady (place.write width offset value) := by
  cases place with
  | timer index =>
      refine ⟨fun timers clocks => ?_, fun timer clock => ?_, fun timer clock => ?_⟩
      · exact same_of_pair (Timer.write_alike (fun _ => rfl) timers clocks width offset value)
      · obtain ⟨result, wrote⟩ := Timer.write_ends timer clock width offset value
        exact ⟨_, Run.outcome_bind_eq_ok.2 ⟨result, wrote, rfl⟩⟩
      · refine .bind (Timer.write_step timer clock width offset value) fun _ step => ?_
        exact .pure step.serves.uses
  | uart index =>
      refine ⟨fun uarts clocks => ?_, fun uart clock => ?_, fun uart clock => ?_⟩
      · exact same_of_pair (Uart.write_alike uarts clocks width offset value)
      · obtain ⟨result, wrote⟩ := Uart.write_ends uart clock width offset value
        exact ⟨_, Run.outcome_bind_eq_ok.2 ⟨result, wrote, rfl⟩⟩
      · refine .bind (Uart.write_step uart clock width offset value) fun _ step => ?_
        exact .pure step.serves.uses

theorem isSteady_receive (index : Fin uartCount) (byte : UInt8) :
    IsSteady (.uart index) fun uart clock => do
      return ((), ← Uart.receive uart byte, clock) where
  alike uarts clocks :=
    .bind (.ofTraced (Uart.receive_alike uarts byte)) fun _ _ uarts => .pure ⟨rfl, uarts, clocks⟩
  ends _ _ := ⟨_, rfl⟩
  uses uart clock := by
    refine .bind (.traced _) ?_
    rintro _ rfl
    exact .pure (Uart.receive_step uart clock byte).serves.uses

theorem isSteady_setLine (index : Fin uartCount) (high : Bool) :
    IsSteady (.uart index) fun uart clock => do
      return ((), ← Uart.setLine uart clock high) where
  alike uarts clocks := same_of_pair (Uart.setLine_alike uarts clocks high)
  ends uart clock := by
    obtain ⟨result, done⟩ := Uart.setLine_ok uart clock high
    exact ⟨_, Run.outcome_bind_eq_ok.2 ⟨result, done, rfl⟩⟩
  uses uart clock := .bind (.except _) fun _ done => .pure (Uart.setLine_tends done).uses

end Instance

/-- The timer or the serial interface whose range of the bus window an address lies in. -/
def instanceAt? (address : UInt32) : Option Instance :=
  if address < windowSize then
    match route? address with
    | some (.timer index, _) => some (.timer index)
    | some (.uart index, _) => some (.uart index)
    | _ => none
  else none

/-- The timer or the serial interface that the command is for. -/
def Command.addressee : Command → Option Instance
  | .read _ address | .write _ address _ => instanceAt? address
  | .receive number _ | .setLine number _ => (uartIndex? number).map .uart
  | _ => none

theorem routed_of_instanceAt? {address : UInt32} {place : Instance}
    (found : instanceAt? address = some place) :
    ¬windowSize ≤ address ∧ ∃ offset, route? address = some (place.part, offset) := by
  unfold instanceAt? at found
  split at found
  next inside =>
    refine ⟨UInt32.not_le.2 inside, ?_⟩
    split at found
    next index offset routed =>
      cases found
      exact ⟨offset, routed⟩
    next index offset routed =>
      cases found
      exact ⟨offset, routed⟩
    next => contradiction
  next => contradiction

theorem onInstance_worded (block : Block μ) {place : Instance} (action : place.Action α)
    (word : α → β) : block.onInstance place (action.worded word) = (do
      let (answer, after) ← block.onInstance place action
      return (word answer, after)) := by
  unfold onInstance Instance.Action.worded Interrupt.Controller.relay
  generalize action (place.device block) block.clock = run
  obtain ⟨outcome, signals⟩ := run
  cases outcome with
  | error fault => rfl
  | ok result => simp [bind, pure, Run.andThen, Except.map]

section

variable [Bus μ]

theorem readPart_instance (block : Block μ) (place : Instance) (width : Width) (offset : UInt32) :
    block.readPart width offset place.part = block.onInstance place (place.read width offset) := by
  cases place <;> rfl

theorem writePart_instance (block : Block μ) (place : Instance) (width : Width)
    (offset value : UInt32) : block.writePart width offset value place.part
      = block.onInstance place (place.write width offset value) := by
  cases place <;> rfl

/-- A command that is for an instance has it act. -/
theorem exists_action (μ : Type) [Bus μ] {command : Command} {place : Instance}
    (addressed : command.addressee = some place) : ∃ action : place.Action Response,
      place.IsSteady action ∧
        ∀ block : Block μ, block.perform command = block.onInstance place action := by
  cases command with
  | read width address =>
      obtain ⟨inside, offset, routed⟩ := routed_of_instanceAt? addressed
      have steady := place.isSteady_read width offset
      refine ⟨_, steady.worded fun value => .loaded (.ok value), fun block => ?_⟩
      rw [onInstance_worded, ← readPart_instance]
      simp only [Block.perform, Block.read, if_neg inside, routed, bind_assoc, pure_bind]
  | write width address value =>
      obtain ⟨inside, offset, routed⟩ := routed_of_instanceAt? addressed
      have steady := place.isSteady_write width offset value
      refine ⟨_, steady.worded fun done => .stored (.ok done), fun block => ?_⟩
      rw [onInstance_worded, ← writePart_instance]
      simp only [Block.perform, Block.write, if_neg inside, routed, bind_assoc, pure_bind]
  | receive number byte =>
      obtain ⟨index, found, rfl⟩ := Option.map_eq_some_iff.1 addressed
      have steady := Instance.isSteady_receive index byte
      refine ⟨_, steady.worded fun done => .accepted (.ok done), fun block => ?_⟩
      rw [onInstance_worded]
      simp only [Block.perform, Block.receive, onUartAt, found, bind_assoc, pure_bind]
      rfl
  | setLine number high =>
      obtain ⟨index, found, rfl⟩ := Option.map_eq_some_iff.1 addressed
      have steady := Instance.isSteady_setLine index high
      refine ⟨_, steady.worded fun done => .accepted (.ok done), fun block => ?_⟩
      rw [onInstance_worded]
      simp only [Block.perform, Block.setLine, onUartAt, found, bind_assoc, pure_bind]
      rfl
  | _ => contradiction

end

/-- What is heard of an instance that has acted. -/
theorem onInstance_of_acts {place : Instance} {action : place.Action α} {answer : α}
    {device : place.Device} {clock : Clock} {signals : List Signal}
    (acts : action (place.device block) block.clock = ⟨.ok (answer, device, clock), signals⟩) :
    block.onInstance place action =
      ⟨.ok (answer,
          (place.put block device).sharing clock (block.controller.hearAll signals).value),
        (block.controller.hearAll signals).signals⟩ := by
  simp [onInstance, Interrupt.Controller.relay, acts, bind, pure, Run.andThen, Except.map]

/-! ## Two actions in either order -/

variable {lockstep : Clock.Lockstep} {one other : Instance}

/-- An action does the same on another clock in lockstep. -/
theorem Instance.IsSteady.again {place : Instance} {action : place.Action α}
    (steady : place.IsSteady action) {device twin after : place.Device}
    {clock other later : Clock} {answer : α} {signals : List Signal}
    (devices : place.Alike lockstep device twin) (clocks : lockstep.clocks clock other)
    (acts : action device clock = ⟨.ok (answer, after, later), signals⟩) :
    ∃ afterOther laterOther, action twin other = ⟨.ok (answer, afterOther, laterOther), signals⟩ ∧
      place.Alike lockstep after afterOther ∧ lockstep.clocks later laterOther := by
  have matched := steady.alike devices clocks
  rw [acts] at matched
  generalize action twin other = run at matched ⊢
  cases matched with
  | @value _ second _ same =>
      obtain ⟨_, afterOther, laterOther⟩ := second
      obtain ⟨rfl, same⟩ := same
      exact ⟨afterOther, laterOther, rfl, same⟩

theorem IsNative.device (native : block.IsNative) (place : Instance) :
    place.Alike (.displaced block.clock.identity block.clock.identity 0) (place.device block)
      (place.device block) := by
  cases place with
  | timer index => exact native.timers index
  | uart index => exact native.uarts index

/-- What a block holds natively is as it is in every lockstep that pairs it with itself. -/
theorem IsNative.device_alike (native : block.IsNative) (shift : lockstep.shift = 0)
    (same : ∀ deadline ∈ block.held, lockstep.deadlines deadline deadline) (place : Instance) :
    place.Alike lockstep (place.device block) (place.device block) := by
  refine (native.device place).recast (.ofDisplaced shift (fun deadline known => ?_) _)
  exact same deadline (Multiset.mem_of_le (place.held_le block) known)

theorem IsNative.dma_alike (native : block.IsNative) (shift : lockstep.shift = 0)
    (same : ∀ deadline ∈ block.held, lockstep.deadlines deadline deadline) :
    Dma.Alike lockstep block.dma block.dma := by
  intro index
  refine (native.dma index).recast (.ofDisplaced shift (fun deadline known => ?_) _)
  exact same deadline (Multiset.mem_of_le (Owner.held_le (.channel index) block) known)

/-- Whoever acts on a native block leaves a clock that has issued all that it keeps. -/
theorem IsNative.isOwn_of_acts (native : block.IsNative) {place : Instance}
    {action : place.Action α} (steady : place.IsSteady action) {answer : α} {device : place.Device}
    {later : Clock} {signals : List Signal}
    (acts : action (place.device block) block.clock = ⟨.ok (answer, device, later), signals⟩) :
    later.identity = block.clock.identity ∧ later.IsOwn := by
  obtain ⟨_, _, _, _, clocks⟩ := steady.again (native.device place) native.clocks acts
  exact ⟨clocks.identity_eq, clocks.own⟩

/-- Two actions on a block, in the one order and in the other. Each answers and signals the same in
both, and what they come to goes in lockstep, with what the others hold. -/
structure Exchange (block : Block μ) (action : one.Action α) (actionOther : other.Action β) where
  lockstep : Clock.Lockstep
  marches : lockstep.Marches
  shift : lockstep.shift = 0
  same : ∀ deadline ∈ block.held, lockstep.deadlines deadline deadline
  answer : α
  reply : β
  signals : List Signal
  signalsOther : List Signal
  /-- What the one comes to by acting first. -/
  device : one.Device
  /-- What the one comes to by acting second. -/
  deviceOther : one.Device
  devices : one.Alike lockstep device deviceOther
  /-- What the other comes to by acting second. -/
  partner : other.Device
  /-- What the other comes to by acting first. -/
  partnerOther : other.Device
  partners : other.Alike lockstep partner partnerOther
  /-- The clock between the actions, where the one acts first. -/
  between : Clock
  /-- The clock between the actions, where the other acts first. -/
  betweenOther : Clock
  last : Clock
  lastOther : Clock
  clocks : lockstep.clocks last lastOther
  acts : action (one.device block) block.clock = ⟨.ok (answer, device, between), signals⟩
  follows : actionOther (other.device block) between = ⟨.ok (reply, partner, last), signalsOther⟩
  actsOther : actionOther (other.device block) block.clock
    = ⟨.ok (reply, partnerOther, betweenOther), signalsOther⟩
  followsOther : action (one.device block) betweenOther
    = ⟨.ok (answer, deviceOther, lastOther), signals⟩

open Clock.Renumbering in
theorem exists_exchange (native : block.IsNative) (distinct : block.clock.Distinct block.held)
    {action : one.Action α} {actionOther : other.Action β} (steady : one.IsSteady action)
    (steadyOther : other.IsSteady actionOther) : Nonempty (block.Exchange action actionOther) := by
  have old (after : Clock) (deadline : Deadline) (known : deadline ∈ block.held) :
      deadline = deadline.renumbered (aside block.clock after).number :=
    (Deadline.renumbered_eq_self
      (aside_number_of_lt (distinct.issued deadline known) after)).symm
  obtain ⟨⟨answer, device, between⟩, done⟩ := steady.ends (one.device block) block.clock
  obtain ⟨⟨reply, partner, last⟩, doneNext⟩ := steadyOther.ends (other.device block) between
  have acts : action (one.device block) block.clock = ⟨.ok (answer, device, between), _⟩ :=
    congrArg (Run.mk · _) done
  have follows : actionOther (other.device block) between = ⟨.ok (reply, partner, last), _⟩ :=
    congrArg (Run.mk · _) doneNext
  have uses : Clock.Uses 1 _ (one.held device) block.clock between := steady.uses _ _ _ done
  obtain ⟨identity, own⟩ := native.isOwn_of_acts steady acts
  have turn := aside_relates native.isOwn uses.follows identity
  -- The other acts on the clock as the one has left it, and on the clock as it was before.
  have partners : other.Alike (Clock.Lockstep.renumbered (aside block.clock between)).flip
      (other.device block) (other.device block) :=
    native.device_alike UInt64.neg_zero (old between) other
  obtain ⟨partnerOther, betweenOther, actsOther, partners, clocksOther⟩ :=
    steadyOther.again partners turn follows
  have usesOther : Clock.Uses 1 _ (other.held partnerOther) block.clock betweenOther :=
    steadyOther.uses _ _ (reply, partnerOther, betweenOther) (by rw [actsOther])
  obtain ⟨identityOther, ownOther⟩ := native.isOwn_of_acts steadyOther actsOther
  have turnOther := aside_relates native.isOwn usesOther.follows identityOther
  -- The one acts on the clock as it was before, and as the other has left it.
  have devices : one.Alike (.renumbered (aside block.clock betweenOther)) (one.device block)
      (one.device block) := native.device_alike rfl (old betweenOther) one
  obtain ⟨deviceOther, lastOther, followsOther, devices, clocks⟩ :=
    steady.again devices turnOther acts
  have later : block.clock.issued ≤ between.issued := uses.follows.issued
  have held := (uses.distinct (distinct.ofLe (one.held_le block))).issued
  have heldOther := (usesOther.distinct (distinct.ofLe (other.held_le block))).issued
  refine ⟨{
    lockstep := .renumbered (crossed block.clock between betweenOther)
    marches := Clock.Lockstep.renumbered_marches (fun _ => id) (fun _ => id)
    shift := rfl
    same := fun deadline known => ?_
    answer, reply, signals := _, signalsOther := _
    device, deviceOther, partner, partnerOther, between, betweenOther, last, lastOther
    acts, follows, actsOther, followsOther
    devices := devices.recast ⟨rfl, ?_⟩
    partners := partners.recast ⟨UInt64.neg_zero.symm, ?_⟩
    clocks := crossed_relates clocks clocksOther own.distinct.issued ownOther.distinct.issued
      ⟨identity.trans identityOther.symm, uses.follows.now.trans usesOther.follows.now.symm⟩ }⟩
  · have below := (distinct.issued deadline known).trans_le later
    exact (old betweenOther deadline known).trans
      (Deadline.renumbered_congr (crossed_number_of_lt below).symm)
  · rintro deadline _ known _ rfl
    exact Deadline.renumbered_congr (crossed_number_of_lt (held deadline known)).symm
  · rintro _ paired _ known rfl
    have number := crossed_aside later (heldOther paired known)
    change paired = (paired.renumbered _).renumbered _
    rw [Deadline.renumbered_renumbered, Deadline.renumbered_eq_self number]

/-- The block after two instances have acted, the second on what the first has left. -/
def afterBoth (block : Block μ) (one other : Instance) (device : one.Device)
    (partner : other.Device) (clock : Clock) (controller : Interrupt.Controller) : Block μ :=
  (other.put (one.put block device) partner).sharing clock controller

theorem IsNative.afterBoth_alike (native : block.IsNative) (shift : lockstep.shift = 0)
    (same : ∀ deadline ∈ block.held, lockstep.deadlines deadline deadline) (apart : one ≠ other)
    {device deviceOther : one.Device} {partner partnerOther : other.Device}
    {clock clockOther : Clock} (devices : one.Alike lockstep device deviceOther)
    (partners : other.Alike lockstep partner partnerOther)
    (clocks : lockstep.clocks clock clockOther) (controller : Interrupt.Controller) :
    Alike lockstep Eq (block.afterBoth one other device partner clock controller)
      (block.afterBoth other one partnerOther deviceOther clockOther controller) := by
  have placed (place : Instance) : place.Alike lockstep
      (place.device (other.put (one.put block device) partner))
      (place.device (one.put (other.put block partnerOther) deviceOther)) := by
    by_cases first : one = place
    · subst first
      rw [Instance.device_put_of_ne apart.symm, Instance.device_put_self, Instance.device_put_self]
      exact devices
    · by_cases second : other = place
      · subst second
        rw [Instance.device_put_self, Instance.device_put_of_ne apart, Instance.device_put_self]
        exact partners
      · rw [Instance.device_put_of_ne second, Instance.device_put_of_ne first,
          Instance.device_put_of_ne first, Instance.device_put_of_ne second]
        exact native.device_alike shift same place
  refine ⟨clocks, ?_, ?_, rfl, fun index => placed (.timer index),
    fun index => placed (.uart index), ?_⟩
  · simp [afterBoth, sharing]
  · simp [afterBoth, sharing]
  · simp only [afterBoth, sharing, Instance.dma_put]
    exact native.dma_alike shift same

section

variable [Bus μ]

theorem performAll_pair {first second : Command} {answer reply : Response} {between : Block μ}
    {events further : List Event} (done : block.perform first = ⟨.ok (answer, between), events⟩)
    (doneNext : between.perform second = ⟨.ok (reply, after), further⟩) :
    block.performAll [first, second] = ⟨.ok ([answer, reply], after), events ++ further⟩ := by
  simp only [performAll, bind_assoc, pure_bind]
  rw [done]
  simp [bind, pure, Run.andThen, doneNext]

/-- What two commands come to in this order, if each has its instance act. -/
theorem performAll_of_acts {first second : Command} (apart : one ≠ other)
    {action : one.Action Response} {actionOther : other.Action Response}
    (performs : ∀ block : Block μ, block.perform first = block.onInstance one action)
    (performsOther : ∀ block : Block μ, block.perform second = block.onInstance other actionOther)
    {answer reply : Response} {device : one.Device} {partner : other.Device} {clock later : Clock}
    {signals signalsOther : List Signal}
    (acts : action (one.device block) block.clock = ⟨.ok (answer, device, clock), signals⟩)
    (actsOther : actionOther (other.device block) clock
      = ⟨.ok (reply, partner, later), signalsOther⟩) :
    block.performAll [first, second] =
      ⟨.ok ([answer, reply], block.afterBoth one other device partner later
        (block.controller.hearAll (signals ++ signalsOther)).value),
        (block.controller.hearAll (signals ++ signalsOther)).signals⟩ := by
  have begun := (performs block).trans (onInstance_of_acts acts)
  generalize heard : (block.controller.hearAll signals).value = controller at begun
  have standing : other.device ((one.put block device).sharing clock controller)
      = other.device block := by
    rw [Instance.device_sharing, Instance.device_put_of_ne apart]
  rw [← standing] at actsOther
  have goesOn := (performsOther _).trans (onInstance_of_acts actsOther)
  rw [Instance.put_sharing] at goesOn
  rw [Interrupt.Controller.hearAll_append, performAll_pair begun goesOn, ← heard]
  rfl

/-- Two commands at one cycle for different timers or serial interfaces may be given in either
order: each answers the same, the interrupt line takes the same levels, and what can be read off the
block is the same, then and after whatever is done with it later. -/
theorem perform_commutes (reached : block.Reached) {first second : Command}
    (addressed : first.addressee = some one) (addressedOther : second.addressee = some other)
    (apart : one ≠ other) : ∃ answer reply forth back,
      (block.performAll [first, second]).outcome = .ok ([answer, reply], forth) ∧
      (block.performAll [second, first]).outcome = .ok ([reply, answer], back) ∧
      (block.performAll [second, first]).signals.filterMap Event.level?
        = (block.performAll [first, second]).signals.filterMap Event.level? ∧
      back.reading = forth.reading ∧
      ∀ deeds, Session.chronicle reading ⟨back, []⟩ deeds
        = Session.chronicle reading ⟨forth, []⟩ deeds := by
  obtain ⟨action, steady, performs⟩ := exists_action μ addressed
  obtain ⟨actionOther, steadyOther, performsOther⟩ := exists_action μ addressedOther
  obtain ⟨exchange⟩ := exists_exchange reached.isNative reached.distinct steady steadyOther
  have forth := performAll_of_acts apart performs performsOther exchange.acts exchange.follows
  have back :=
    performAll_of_acts apart.symm performsOther performs exchange.actsOther exchange.followsOther
  obtain ⟨heard, levels⟩ :=
    Interrupt.Controller.hearAll_comm reached.isDriven exchange.signals exchange.signalsOther
  have alike := reached.isNative.afterBoth_alike exchange.shift exchange.same apart
    exchange.devices exchange.partners exchange.clocks
    (block.controller.hearAll (exchange.signals ++ exchange.signalsOther)).value
  have reads {block twin : Block μ} (alike : Alike exchange.lockstep Eq block twin) :
      twin.reading = block.reading := by
    rw [reading_of_alike exchange.marches alike, exchange.shift, Reading.displaced_zero]
  rw [forth, back, heard]
  refine ⟨_, _, _, _, rfl, rfl, levels, reads alike, fun deeds => ?_⟩
  have sessions : Session.Alike exchange.lockstep Eq
      ⟨block.afterBoth one other _ _ _ _, []⟩ ⟨block.afterBoth other one _ _ _ _, []⟩ :=
    ⟨alike, .nil⟩
  have same := sessions.chronicle_eq exchange.marches (fun _ => rfl) reading reading id reads deeds
  simpa using same

/-- A timer that starts and a serial interface that begins to send place their deadlines in either
order. -/
theorem perform_commutes_renumbered : ∃ block forth back : Block Ram, block.Reached ∧
    (block.performAll [.write .word 0x1400 3, .write .word 0x180c 65]).outcome
      = .ok ([.stored (.ok ()), .stored (.ok ())], forth) ∧
    (block.performAll [.write .word 0x180c 65, .write .word 0x1400 3]).outcome
      = .ok ([.stored (.ok ()), .stored (.ok ())], back) ∧
    back.clock.pending ≠ forth.clock.pending ∧ back.reading = forth.reading ∧
    ∀ deeds, Session.chronicle reading ⟨back, []⟩ deeds
      = Session.chronicle reading ⟨forth, []⟩ deeds := by
  have powered : create {} {} Ram.empty = .ok (initial {} {} Ram.empty) := rfl
  have created : Reached (initial {} {} Ram.empty) := .create (.fresh 0 0) powered
  have enabled := created.perform (.write .word 0x1800 0x100) rfl
  have timer : (Command.write .word 0x1400 3).addressee = some (.timer 0) := rfl
  have uart : (Command.write .word 0x180c 65).addressee = some (.uart 0) := rfl
  obtain ⟨answer, reply, forth, back, done, doneOther, _, same, told⟩ :=
    perform_commutes enabled timer uart (by decide)
  cases done
  cases doneOther
  exact ⟨_, _, _, enabled, rfl, rfl, by decide, same, told⟩

end

end Block

end SocPeripherals
