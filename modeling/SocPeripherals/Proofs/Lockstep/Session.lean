import SocPeripherals.Bus.Ram
import SocPeripherals.Proofs.Block.Restored
import SocPeripherals.Proofs.Lockstep.Twins

/-!
# Saved and restored sessions

A host works with a block, saves it now and then and comes back to what was saved. A block that
has taken over the state of another can from then on not be told from it, by a timely host that
alone uses its clock.
-/

namespace SocPeripherals

namespace Block

variable {μ : Type}

/-- What the surroundings can see of a block. -/
structure View (μ : Type) where
  memory : μ
  pending : UInt32
  enabled : UInt32
  vector : UInt8
  line : Bool
  /-- The cycles until the next deadline. -/
  waits : Option UInt64

/-- What can be seen of the block. -/
def view (block : Block μ) : View μ :=
  { memory := block.memory
    pending := block.controller.pending
    enabled := block.controller.enabled
    vector := block.controller.vector
    line := block.isInterruptPending
    waits := block.clock.nextDeadline.map block.clock.distance }

/-- What a host does with a block. -/
inductive Deed where
  | give (command : Command)
  /-- Restores what was saved somewhere else. -/
  | takeOver (saved : Snapshot)
  /-- Saves the block. -/
  | save
  /-- Restores what was saved so many times before the last time. -/
  | recall (back : Nat)

/-- A block, with what was saved of it, latest first. -/
structure Session (μ : Type) where
  block : Block μ
  saved : List Snapshot := []

variable [Bus μ]

namespace Session

/-- Gives a command to the block. -/
def give (session : Session μ) (command : Command) : Run Event (Response × Session μ) := do
  let (response, block) ← session.block.perform command
  return (response, { session with block })

/-- Does a deed. There is nothing to recall if nothing was saved. -/
def does (session : Session μ) : Deed → Run Event (Response × Session μ)
  | .give command => session.give command
  | .takeOver saved => session.give (.restore saved)
  | .save => pure (.done, { session with saved := session.block.snapshot :: session.saved })
  | .recall back =>
      match session.saved[back]? with
      | none => pure (.done, session)
      | some saved => session.give (.restore saved)

/-- Does deeds in order. Tells for each the response and what can be seen of the block after it. -/
def watch (session : Session μ) : List Deed → Run Event (List (Response × View μ))
  | [] => pure []
  | deed :: rest => do
      let (response, session) ← session.does deed
      let seen ← session.watch rest
      return (response, session.block.view) :: seen

end Session

/-- A timely host may do the deed on a clock of its own. What is restored has been saved under a
timely host, and suits the block. -/
def Deed.IsTimely (μ : Type) [Bus μ] (settings : Settings) (overdue : Bool) : Deed → Prop
  | .give command => command.IsTimely true overdue
  | .takeOver saved => saved.Suits settings ∧ ∃ (origin : Settings) (alone : Bool)
      (other : Block μ), Timely origin alone false other ∧ saved = other.snapshot
  | .save => overdue = false
  | .recall _ => True

/-- A reached deadline has not been polled for after the deed. -/
def Deed.leaves (overdue : Bool) (response : Response) : Deed → Bool
  | .give command => command.leaves overdue response
  | .takeOver _ | .save | .recall _ => overdue

/-- A timely host may do the deeds, one after the other. -/
def Session.Heeds (settings : Settings) : Bool → Session μ → List Deed → Prop
  | _, _, [] => True
  | overdue, session, deed :: rest => deed.IsTimely μ settings overdue ∧
      ∀ response after, (session.does deed).outcome = .ok (response, after) →
        Heeds settings (deed.leaves overdue response) after rest

/-! ## Sessions with twins -/

variable {settings : Settings} {overdue alone : Bool} {shift : UInt64} {block twin : Block μ}
  {source target : Block μ}

/-- What was saved comes back alike, and is such as can be restored. -/
structure Snapshot.Kept (settings : Settings) (saved savedOther : Snapshot) : Prop where
  alike : saved.Alike savedOther
  first : saved.IsOrderly settings.dmaCycles
  second : savedOther.IsOrderly settings.dmaCycles

/-- Sessions with twins, in which the same was saved. -/
structure Session.Twins (settings : Settings) (overdue : Bool) (shift : UInt64)
    (session other : Session μ) : Prop where
  blocks : Block.Twins settings overdue shift session.block other.block
  saved : List.Forall₂ (Snapshot.Kept settings) session.saved other.saved

omit [Bus μ] in
theorem Twins.view_eq (twins : Twins settings overdue shift block twin) :
    twin.view = block.view := by
  unfold view isInterruptPending
  rw [twins.alike.memory, twins.alike.controller, Clock.map_distance_nextDeadline,
    Clock.map_distance_nextDeadline, twins.waits.nextDistance_eq]

/-- The same responses, with sessions with twins. -/
abbrev Session.SameTwins (settings : Settings) (overdue : Response → Bool) (shift : UInt64)
    (first second : Response × Session μ) : Prop :=
  first.1 = second.1 ∧ Session.Twins settings (overdue first.1) shift first.2 second.2

theorem Session.Twins.give {session other : Session μ}
    (twins : Session.Twins settings overdue shift session other) {left : Response → Bool}
    {command commandOther : Command}
    (matched : (session.block.perform command).Matches (Block.SameTwins settings left shift)
      (other.block.perform commandOther)) :
    (session.give command).Matches (SameTwins settings left shift) (other.give commandOther) :=
  .bind matched fun _ _ same => .pure ⟨same.1, same.2, twins.saved⟩

/-- What stands at a place of a list is related to what stands there in the other. -/
theorem forall₂_getElem? {α β : Type} {related : α → β → Prop} {left : List α} {right : List β}
    (matched : List.Forall₂ related left right) (position : Nat) :
    Option.Rel related left[position]? right[position]? := by
  induction matched generalizing position with
  | nil => exact .none
  | cons here _ ih =>
      cases position with
      | zero => exact .some here
      | succ position => simpa using ih position

theorem Session.Twins.does {session other : Session μ}
    (twins : Session.Twins settings overdue shift session other) {deed : Deed}
    (timely : deed.IsTimely μ settings overdue) :
    (session.does deed).Matches
      (SameTwins settings (fun response => deed.leaves overdue response) shift)
      (other.does deed) := by
  cases deed with
  | give command => exact twins.give (twins.blocks.perform timely)
  | takeOver saved =>
      obtain ⟨suits, origin, alone, source, reached, rfl⟩ := timely
      have own := reached.orderly.snapshot.ofSuits suits
      exact twins.give (twins.blocks.restore own own (.refl _))
  | save =>
      cases timely
      have kept : Snapshot.Kept settings session.block.snapshot other.block.snapshot :=
        ⟨snapshot_alike twins.blocks.alike, twins.blocks.first.snapshot,
          twins.blocks.second.snapshot⟩
      exact .pure ⟨rfl, twins.blocks, .cons kept twins.saved⟩
  | «recall» back =>
      unfold Session.does
      dsimp only
      have found := forall₂_getElem? twins.saved back
      generalize session.saved[back]? = saved at found
      generalize other.saved[back]? = savedOther at found
      cases found with
      | none => exact .pure ⟨rfl, twins⟩
      | some kept => exact twins.give (twins.blocks.restore kept.first kept.second kept.alike)

/-- Twins cannot be told from one another, whatever a timely host does with them. -/
theorem Session.Twins.watch_eq {session other : Session μ}
    (twins : Session.Twins settings overdue shift session other) {deeds : List Deed}
    (heeds : session.Heeds settings overdue deeds) : session.watch deeds = other.watch deeds := by
  refine Run.Matches.eq ?_
  induction deeds generalizing session other overdue with
  | nil => exact .pure rfl
  | cons deed rest ih =>
      obtain ⟨timely, heeds⟩ := heeds
      have does := (twins.does timely).and (.own _) (.trivial _)
      refine .bind does ?_
      rintro ⟨response, after⟩ ⟨_, afterOther⟩ ⟨⟨same, twins⟩, done, _⟩
      cases same
      refine .bind (ih twins (heeds response after done)) ?_
      rintro seen _ rfl
      rw [twins.blocks.view_eq]
      exact .pure rfl

omit [Bus μ] in
/-- A block that has taken over the state of another is its twin, and nothing is overdue. -/
theorem Orderly.twins (orderly : Orderly settings true false source)
    (kept : Orderly settings true overdue target)
    (alike : Alike (.apart shift) (fun _ _ => True) source target) :
    Twins settings false shift source target where
  alike := alike
  first := orderly
  second := { kept with
    ahead := fun _ paired known => by
      obtain ⟨deadline, known, deadlines⟩ :=
        Multiset.exists_mem_of_rel_of_mem (Multiset.rel_flip.2 alike.held) known
      rw [Clock.Lockstep.hasReached_eq alike.clocks deadlines]
      exact orderly.ahead rfl deadline known }

omit [Bus μ] in
/-- A block that takes over the state of another goes in lockstep with it, whatever the stopped
timers have latched. -/
theorem Orderly.restore_alike (orderly : Orderly settings true false source)
    (hosts : Orderly settings true overdue target) (memory : target.memory = source.memory) :
    (target.restore source.snapshot).Succeeds fun (answer, after) => answer = .ok () ∧
      Alike (.apart (target.clock.now - source.clock.now)) (fun _ _ => True) source after :=
  restore_snapshot orderly hosts.sound memory fun _ _ => True.intro

/-- A block that takes over what a timely host has saved of another block of the same settings, on
clocks of their own and over the same memory, can from then on not be told from that block. -/
theorem restore_indistinguishable (saved : Timely settings true false source)
    (hosts : Timely settings true overdue target) (memory : target.memory = source.memory) :
    ∃ after, (target.restore source.snapshot).outcome = .ok (.ok (), after) ∧
      after.view = source.view ∧ ∀ deeds, Session.Heeds settings false ⟨source, []⟩ deeds →
        Session.watch ⟨source, []⟩ deeds = Session.watch ⟨after, []⟩ deeds := by
  have orderly := saved.orderly
  have alike := orderly.restore_alike hosts.orderly memory
  have restored := alike.and (hosts.orderly.restore orderly.snapshot)
  obtain ⟨⟨_, after⟩, done, ⟨rfl, alike⟩, kept⟩ := restored
  have twins := orderly.twins kept alike
  have sessions : Session.Twins settings false _ ⟨source, []⟩ ⟨after, []⟩ := ⟨twins, .nil⟩
  exact ⟨after, done, twins.view_eq, fun deeds heeds => sessions.watch_eq heeds⟩

/-- A block in the middle of a timer's period, and one on a clock that shows another cycle. -/
theorem restore_indistinguishable_running : ∃ source target after : Block Ram,
    Timely {} true false source ∧ Timely {} true false target ∧ target.memory = source.memory ∧
      source.view.waits = some 13 ∧ (target.restore source.snapshot).outcome = .ok (.ok (), after) ∧
      Session.watch ⟨source, []⟩ [.give (.tick 20), .save, .give .reset, .recall 0]
        = Session.watch ⟨after, []⟩ [.give (.tick 20), .save, .give .reset, .recall 0] := by
  have created : Timely {} true false (initial {} {} Ram.empty) :=
    .create (.fresh 0 0) (fun _ => rfl) rfl
  have counting := created.perform (.write .word 0x1404 20) trivial rfl
  have running := counting.perform (.write .word 0x1400 3) trivial rfl
  have halfway := running.perform (.tick 8) rfl rfl
  have target : Timely {} true false (initial {} { identity := 1, now := 1000 } Ram.empty) :=
    .create (.fresh 1 1000) (fun _ => rfl) rfl
  obtain ⟨after, done, _, same⟩ := restore_indistinguishable halfway target rfl
  refine ⟨_, _, after, halfway, target, rfl, rfl, done, same _ ?_⟩
  exact ⟨rfl, fun _ _ _ => ⟨rfl, fun _ _ _ => ⟨trivial, fun _ _ _ => ⟨trivial, fun _ _ _ =>
    trivial⟩⟩⟩⟩

/-- A transfer that was saved after running for longer than it takes in the block that takes it
over leaves that block waiting for a deadline that a poll has already handled. A third block, which
takes over what is saved then, does not wait for it. -/
theorem restore_distinguishable_outrun : ∃ slow fast between source after : Block Ram,
    Timely { dmaCycles := 10 } true false slow ∧ Timely { dmaCycles := 1 } true false fast ∧
      (fast.perform (.restore slow.snapshot)).outcome = .ok (.accepted (.ok ()), between) ∧
      (between.perform .poll).outcome = .ok (.done, source) ∧ fast.memory = source.memory ∧
      (fast.restore source.snapshot).outcome = .ok (.ok (), after) ∧
      source.view.waits = some 0 ∧ after.view.waits = none := by
  have created : Timely { dmaCycles := 10 } true false
      (initial { dmaCycles := 10 } {} Ram.empty) := .create (.fresh 0 0) (fun _ => rfl) rfl
  have started := created.perform (.startTransfer 0 0 32 4 0) trivial rfl
  have slow := started.perform (.tick 20) rfl rfl
  have fast : Timely { dmaCycles := 1 } true false
      (initial { dmaCycles := 1 } {} Ram.empty) := .create (.fresh 0 0) (fun _ => rfl) rfl
  exact ⟨_, _, _, _, _, slow, fast, rfl, rfl, rfl, rfl, rfl, rfl⟩

end Block

end SocPeripherals
