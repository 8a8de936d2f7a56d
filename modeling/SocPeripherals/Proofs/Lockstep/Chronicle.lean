import SocPeripherals.Proofs.Lockstep.Native
import SocPeripherals.Proofs.Lockstep.Session

/-!
# Chronicles of a session

A chronicle tells deed by deed what a block signalled and answered and what could be read off it, up
to the first fault. Blocks whose clocks march in lockstep have the same chronicle. In particular a
block cannot tell at which cycle its clock was started: what can be read off two blocks at power-on
whose clocks first show different cycles is always the same, but for the counter and the next
deadline, which stay as far apart as the clocks were.
-/

namespace SocPeripherals

namespace Timer

variable {lockstep : Clock.Lockstep} {timer twin : Timer} {clock other : Clock}

theorem snapshot_eq_of_alike (alike : Alike lockstep Eq timer twin)
    (clocks : lockstep.clocks clock other) : twin.snapshot other = timer.snapshot clock := by
  cases alike with
  | stopped index source bank unused =>
      cases unused
      rfl
  | running index source bank latch start deadlines =>
      have alike : Alike lockstep Eq ⟨index, source, bank, latch, .running start _⟩ _ :=
        .running index source bank latch start deadlines
      exact (snapshot_alike alike clocks).same rfl

end Timer

namespace Block

variable {μ β γ : Type} {lockstep : Clock.Lockstep} {idle : Timer.Latch → Timer.Latch → Prop}
  {block twin : Block μ}

/-! ## What can be read off a block -/

/-- What can be read off a block and its clock. -/
structure Reading (μ : Type) where
  view : View μ
  saved : Snapshot
  now : UInt64
  nextDeadline : Option UInt64

/-- All that can be read off the block. -/
def reading (block : Block μ) : Reading μ :=
  { view := block.view
    saved := block.snapshot
    now := block.clock.now
    nextDeadline := block.clock.nextDeadline }

/-- The counter, and with it the next deadline, is so many cycles further on. -/
def Reading.displaced (reading : Reading μ) (shift : UInt64) : Reading μ :=
  { reading with
    now := reading.now + shift
    nextDeadline := reading.nextDeadline.map (· + shift) }

theorem Reading.displaced_zero (reading : Reading μ) : reading.displaced 0 = reading := by
  simp [displaced]

/-- Blocks whose stopped timers have latched the same save the same. -/
theorem snapshot_eq_of_alike (alike : Alike lockstep Eq block twin) :
    twin.snapshot = block.snapshot := by
  unfold snapshot
  rw [alike.misc, alike.controller]
  congr 1
  · exact Parts.map_toList_congr fun index =>
      Timer.snapshot_eq_of_alike (alike.timers index) alike.clocks
  · exact Parts.map_toList_congr fun index =>
      Uart.snapshot_alike (alike.uarts index) alike.clocks
  · exact Dma.snapshot_alike alike.dma alike.clocks

theorem view_eq_of_alike (marches : lockstep.Marches) (alike : Alike lockstep idle block twin) :
    twin.view = block.view := by
  unfold view isInterruptPending
  rw [alike.memory, alike.controller, Clock.map_distance_nextDeadline,
    Clock.map_distance_nextDeadline, marches.nextDistance_eq alike.clocks]

/-- What is read off the blocks lies as far apart as their counters do. -/
theorem reading_of_alike (marches : lockstep.Marches) (alike : Alike lockstep Eq block twin) :
    twin.reading = block.reading.displaced lockstep.shift := by
  have now := lockstep.now_eq alike.clocks
  have next : twin.clock.nextDeadline = block.clock.nextDeadline.map (· + lockstep.shift) := by
    unfold Clock.nextDeadline
    rw [marches.nextDistance_eq alike.clocks, Option.map_map, now]
    congr 1
    funext cycles
    simp only [Function.comp_apply]
    grind
  have view := view_eq_of_alike marches alike
  simp only [reading, Reading.displaced, view, snapshot_eq_of_alike alike, now, next]

theorem reading_displaced {first second : Nat} {shift : UInt64}
    (alike : Alike (.displaced first second shift) Eq block twin) :
    twin.reading = block.reading.displaced shift :=
  reading_of_alike (Clock.Lockstep.displaced_marches first second shift) alike

/-! ## Sessions told deed by deed -/

variable [Bus μ]

/-- Does deeds in order, up to the first fault. Tells of each what it signalled and how it ended:
with a fault, or with a response and what is then read off the block. -/
def Session.chronicle (read : Block μ → β) (session : Session μ) :
    List Deed → List (Run Event (Response × β))
  | [] => []
  | deed :: rest =>
      let done := session.does deed
      match done.outcome with
      | .error fault => [⟨.error fault, done.signals⟩]
      | .ok (response, after) =>
          ⟨.ok (response, read after.block), done.signals⟩ :: after.chronicle read rest

/-- The blocks are alike, and so is what was saved of them. -/
structure Session.Alike (lockstep : Clock.Lockstep) (idle : Timer.Latch → Timer.Latch → Prop)
    (session other : Session μ) : Prop where
  blocks : Block.Alike lockstep idle session.block other.block
  saved : List.Forall₂ Snapshot.Alike session.saved other.saved

/-- The same responses, with sessions that are alike. -/
abbrev Session.Same (lockstep : Clock.Lockstep) (idle : Timer.Latch → Timer.Latch → Prop)
    (first second : Response × Session μ) : Prop :=
  first.1 = second.1 ∧ Session.Alike lockstep idle first.2 second.2

namespace Session.Alike

variable {session other : Session μ}

theorem give (alike : Session.Alike lockstep idle session other) {command commandOther : Command}
    (matched : (session.block.perform command).Matches (Block.Same lockstep idle)
      (other.block.perform commandOther)) :
    (session.give command).Matches (Session.Same lockstep idle) (other.give commandOther) :=
  .bind matched fun _ _ same => .pure ⟨same.1, same.2, alike.saved⟩

theorem does (marches : lockstep.Marches) (reflexive : ∀ latch, idle latch latch)
    (alike : Session.Alike lockstep idle session other) (deed : Deed) :
    (session.does deed).Matches (Session.Same lockstep idle) (other.does deed) := by
  cases deed with
  | give command => exact alike.give (perform_alike marches reflexive alike.blocks command)
  | takeOver saved =>
      exact alike.give (perform_alike marches reflexive alike.blocks (.restore saved))
  | save => exact .pure ⟨rfl, alike.blocks, .cons (snapshot_alike alike.blocks) alike.saved⟩
  | «recall» back =>
      unfold Session.does
      dsimp only
      have found := forall₂_getElem? alike.saved back
      generalize session.saved[back]? = saved at found
      generalize other.saved[back]? = savedOther at found
      cases found with
      | none => exact .pure ⟨rfl, alike⟩
      | some same =>
          exact alike.give
            (answer_alike Response.accepted (restore_alike reflexive alike.blocks same))

/-- Sessions on clocks that march in lockstep have the same chronicle, if readings change in the
same way from the one block to the other. -/
theorem chronicle_eq (marches : lockstep.Marches) (reflexive : ∀ latch, idle latch latch)
    (read : Block μ → β) (readOther : Block μ → γ) (change : β → γ)
    (reads : ∀ {block twin : Block μ}, Block.Alike lockstep idle block twin →
      readOther twin = change (read block))
    (alike : Session.Alike lockstep idle session other) (deeds : List Deed) :
    other.chronicle readOther deeds
      = (session.chronicle read deeds).map (Prod.map id change <$> ·) := by
  induction deeds generalizing session other with
  | nil => rfl
  | cons deed rest ih =>
      have does := alike.does marches reflexive deed
      unfold chronicle
      generalize session.does deed = done at does
      generalize other.does deed = doneOther at does
      cases does with
      | fault reason signals => simp
      | @value first second signals same =>
          obtain ⟨response, after⟩ := first
          obtain ⟨_, afterOther⟩ := second
          obtain ⟨rfl, alike⟩ := same
          simp [ih alike, reads alike.blocks]

end Session.Alike

/-! ## The first cycle of the clock -/

/-- The chronicle of a block from power-on. -/
def history (settings : Settings) (clock : Clock) (memory : μ) (deeds : List Deed) :
    Except Fault (List (Run Event (Response × Reading μ))) := do
  let block ← create settings clock memory
  return Session.chronicle reading ⟨block, []⟩ deeds

/-- Blocks of the same settings over the same memory, each on a clock that nobody else has used, do
the same on every deed whatever cycles the clocks first show, up to the same fault. -/
theorem history_displaced (settings : Settings) (memory : μ) (first second : Nat)
    (early late : UInt64) (deeds : List Deed) :
    history settings { identity := second, now := late } memory deeds
      = List.map (Prod.map id (·.displaced (late - early)) <$> ·) <$>
          history settings { identity := first, now := early } memory deeds := by
  have reached : late = early + (late - early) := by grind
  have clocks : (Clock.Lockstep.displaced first second (late - early)).clocks
      { identity := first, now := early } { identity := second, now := late } := by
    refine ⟨rfl, ⟨?_, ?_, ?_⟩, ?_⟩
    · intro deadline placed
      contradiction
    · exact Multiset.nodup_zero
    · intro deadline placed
      contradiction
    · exact congrArg (fun now => ({ identity := second, now } : Clock)) reached
  have sessions : Session.Alike (.displaced first second (late - early)) Eq
      ⟨initial settings { identity := first, now := early } memory, []⟩
      ⟨initial settings { identity := second, now := late } memory, []⟩ :=
    ⟨alike_initial (fun _ => rfl) settings memory clocks, .nil⟩
  have same := sessions.chronicle_eq (Clock.Lockstep.displaced_marches _ _ _) (fun _ => rfl)
    reading reading (·.displaced (late - early)) (fun alike => reading_displaced alike) deeds
  unfold history create
  cases Storage.reserve settings.uartCapacity with
  | error fault => rfl
  | ok => exact congrArg Except.ok same

end Block

end SocPeripherals
