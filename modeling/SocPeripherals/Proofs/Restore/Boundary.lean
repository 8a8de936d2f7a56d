import SocPeripherals.Proofs.Restore.Handover

/-!
# Where a refused restoration stops

A block checks the shape of what was saved and then has its instances take over their parts one
after the other. The first that refuses ends the restoration: the instances before it are as their
own restoring leaves them, it and all others are as they were, their deadlines included.
-/

namespace SocPeripherals

namespace Block

variable {μ : Type} {block between after : Block μ} {saved : Snapshot} {owner : Owner}
  {owners : List Owner}

/-! ## The deadlines of the instances -/

theorem Owner.held_le (owner : Owner) (block : Block μ) : owner.held block ≤ block.held := by
  cases owner with
  | misc => exact Multiset.zero_le _
  | controller => exact Multiset.zero_le _
  | channel index =>
      exact (Deadline.le_all Dma.Channel.held block.dma.channels index).trans
        (Multiset.le_add_left _ _)
  | timer index => exact timer_le_held index
  | uart index =>
      exact (Deadline.le_all Uart.held block.uarts index).trans
        ((Multiset.le_add_left _ _).trans (Multiset.le_add_right _ _))

theorem uart_channel_le_held (index : Fin uartCount) (number : Fin Dma.channelCount) :
    block.uarts[index].held + block.dma.channels[number].held ≤ block.held :=
  add_le_add ((Deadline.le_all Uart.held block.uarts index).trans (Multiset.le_add_left _ _))
    (Deadline.le_all Dma.Channel.held block.dma.channels number)

/-- What two instances hold is held by the block side by side. -/
theorem Owner.add_held_le {first second : Owner} (apart : first ≠ second) (block : Block μ) :
    first.held block + second.held block ≤ block.held := by
  have idle {owner : Owner} (none : owner.held block = 0) (other : Owner) :
      owner.held block + other.held block ≤ block.held := by
    rw [none, zero_add]
    exact other.held_le block
  have comm {owner other : Owner} (le : owner.held block + other.held block ≤ block.held) :
      other.held block + owner.held block ≤ block.held := by
    rwa [add_comm]
  cases first with
  | misc => exact idle rfl second
  | controller => exact idle rfl second
  | timer index =>
      cases second with
      | misc => exact comm (idle rfl _)
      | controller => exact comm (idle rfl _)
      | timer number => exact timers_le_held fun same => apart (congrArg Owner.timer same)
      | uart number => exact timer_uart_le_held index number
      | channel number => exact timer_channel_le_held index number
  | uart index =>
      cases second with
      | misc => exact comm (idle rfl _)
      | controller => exact comm (idle rfl _)
      | timer number => exact comm (timer_uart_le_held number index)
      | uart number =>
          exact (Deadline.add_le_all Uart.held block.uarts fun same =>
            apart (congrArg Owner.uart same)).trans
              ((Multiset.le_add_left _ _).trans (Multiset.le_add_right _ _))
      | channel number => exact uart_channel_le_held index number
  | channel index =>
      cases second with
      | misc => exact comm (idle rfl _)
      | controller => exact comm (idle rfl _)
      | timer number => exact comm (timer_channel_le_held number index)
      | uart number => exact comm (uart_channel_le_held number index)
      | channel number =>
          exact (Deadline.add_le_all Dma.Channel.held block.dma.channels fun same =>
            apart (congrArg Owner.channel same)).trans (Multiset.le_add_left _ _)

/-- Two instances hold no deadline in common. -/
theorem Owner.held_apart (distinct : block.clock.Distinct block.held) {first second : Owner}
    (apart : first ≠ second) {deadline : Deadline} (known : deadline ∈ first.held block) :
    deadline ∉ second.held block :=
  Multiset.disjoint_left.1
    (Multiset.nodup_add.1 (distinct.ofLe (Owner.add_held_le apart block)).nodup).2.2 known

/-! ## What several instances make of theirs -/

/-- Some instances have taken over their parts, and nothing else was done. -/
structure Boundary (saved : Snapshot) (owners : List Owner) (block after : Block μ) : Prop where
  /-- Each of them is as its own restoring leaves it, at the same cycle of the clock. -/
  taken : ∀ owner ∈ owners, ∃ clock alone, clock.now = block.clock.now ∧
    clock.identity = block.clock.identity ∧
    (restoreOwner saved owner { block with clock }).outcome = .ok (.ok (), alone) ∧
    owner.Agrees alone after
  left : ∀ owner ∉ owners, owner.Agrees block after
  memory : after.memory = block.memory
  now : after.clock.now = block.clock.now
  identity : after.clock.identity = block.clock.identity
  issued : block.clock.issued ≤ after.clock.issued
  /-- What they hold then was placed by their restoring. -/
  fresh : ∀ owner ∈ owners, ∀ deadline ∈ owner.held after, block.clock.issued ≤ deadline.serial
  pending : ∀ deadline, deadline ∈ after.clock.pending ↔
    (deadline ∈ block.clock.pending ∧ ∀ owner ∈ owners, deadline ∉ owner.held block) ∨
      ∃ owner ∈ owners, deadline ∈ owner.held after

theorem Boundary.refl (saved : Snapshot) (block : Block μ) : Boundary saved [] block block where
  taken _ listed := absurd listed List.not_mem_nil
  left owner _ := .refl owner block
  memory := rfl
  now := rfl
  identity := rfl
  issued := le_rfl
  fresh _ listed := absurd listed List.not_mem_nil
  pending _ := by simp

/-- One more instance takes over its part. -/
theorem Boundary.concat (shaped : saved.mismatch? = none)
    (boundary : Boundary saved owners block between) (missing : owner ∉ owners)
    (old : ∀ deadline ∈ owner.held block, deadline.serial < block.clock.issued)
    (done : (restoreOwner saved owner between).outcome = .ok (.ok (), after))
    (others : ∀ other : Owner, other ≠ owner → other.Agrees between after)
    (memory : after.memory = between.memory)
    (replaces : between.clock.Replaces (owner.held between) (owner.held after) after.clock) :
    Boundary saved (owners ++ [owner]) block after := by
  have apart {earlier : Owner} (listed : earlier ∈ owners) : earlier ≠ owner :=
    fun same => missing (same ▸ listed)
  have mine := boundary.left owner missing
  have heldBefore : owner.held between = owner.held block := mine.held_eq
  have heldAfter {earlier : Owner} (listed : earlier ∈ owners) :
      earlier.held after = earlier.held between := (others earlier (apart listed)).held_eq
  refine {
    taken := fun part listed => ?_
    left := fun part missing => ?_
    memory := memory.trans boundary.memory
    now := replaces.now.trans boundary.now
    identity := replaces.identity.trans boundary.identity
    issued := boundary.issued.trans replaces.issued
    fresh := fun part listed deadline known => ?_
    pending := fun deadline => ?_ }
  · rcases List.mem_append.1 listed with listed | listed
    · obtain ⟨clock, alone, now, identity, ran, agrees⟩ := boundary.taken part listed
      exact ⟨clock, alone, now, identity, ran, agrees.trans (others part (apart listed))⟩
    · cases List.mem_singleton.1 listed
      have same : owner.Agrees between { block with clock := between.clock } := by
        cases owner <;> exact mine.symm
      obtain ⟨alone, ran, agrees⟩ := restoreOwner_congr shaped same rfl done
      exact ⟨between.clock, alone, boundary.now, boundary.identity, ran, agrees⟩
  · have outside := not_or.1 (mt List.mem_append.2 missing)
    exact (boundary.left part outside.1).trans
      (others part fun same => outside.2 (List.mem_singleton.2 same))
  · rcases List.mem_append.1 listed with listed | listed
    · rw [heldAfter listed] at known
      exact boundary.fresh part listed deadline known
    · cases List.mem_singleton.1 listed
      exact boundary.issued.trans (replaces.fresh deadline known).1
  · rw [replaces.pending, boundary.pending, heldBefore]
    have kept : (∃ part ∈ owners, deadline ∈ part.held after) ↔
        ∃ part ∈ owners, deadline ∈ part.held between :=
      exists_congr fun part => and_congr_right fun listed => by rw [heldAfter listed]
    have spared : (∃ part ∈ owners, deadline ∈ part.held between) →
        deadline ∉ owner.held block := by
      rintro ⟨part, listed, known⟩ held
      exact absurd (boundary.fresh part listed deadline known) (Nat.not_le.2 (old deadline held))
    simp only [List.mem_append, List.mem_singleton, or_imp, forall_and, forall_eq, or_and_right,
      exists_or, exists_eq_left, kept]
    generalize (∃ part ∈ owners, deadline ∈ part.held between) = placed at spared ⊢
    tauto

/-- As many instances as accept their parts take them over, one after the other. -/
theorem restoreAll_boundary (shaped : saved.mismatch? = none) (distinct : owners.Nodup)
    (old : ∀ owner : Owner, ∀ deadline ∈ owner.held block, deadline.serial < block.clock.issued)
    (accept : ∀ owner ∈ owners, owner.obstacle? saved block = none) :
    ∃ after, restoreAll (owners.map (restoreOwner saved)) block
        = ⟨.ok (.ok (), after), owners.flatMap (Owner.told saved block)⟩ ∧
      Boundary saved owners block after := by
  induction owners using List.reverseRecOn with
  | nil => exact ⟨block, rfl, .refl saved block⟩
  | append_singleton owners owner ih =>
      obtain ⟨distinct, -, apart⟩ := List.nodup_append.1 distinct
      have missing : owner ∉ owners := fun listed =>
        apart owner listed owner (List.mem_singleton_self owner) rfl
      obtain ⟨between, ran, boundary⟩ := ih distinct fun other listed =>
        accept other (List.mem_append_left _ listed)
      have mine := boundary.left owner missing
      have clear : owner.obstacle? saved between = none :=
        (mine.obstacle_eq saved).trans (accept owner (by simp))
      obtain ⟨after, done, handover⟩ := restoreOwner_of_none shaped clear
      refine ⟨after, ?_, ?_⟩
      · have last : restoreAll [restoreOwner saved owner] between =
            ⟨.ok (.ok (), after), owner.told saved block⟩ := by
          rw [restoreAll, done, mine.told_eq]
          exact congrArg (Run.mk _) (List.append_nil _)
        rw [List.map_append, restoreAll_append, ran, List.flatMap_append, List.flatMap_singleton]
        refine (Run.bind_of_ok rfl _).trans ?_
        dsimp only [List.map_singleton, restoreRest]
        rw [last]
      · have ends : (restoreOwner saved owner between).outcome = .ok (.ok (), after) :=
          congrArg Run.outcome done
        cases handover with
        | accepted others memory clock =>
            exact boundary.concat shaped missing (old owner) ends others memory clock

/-! ## Restoring a block -/

/-- A block of which every part is there has its instances take them over in their order. -/
theorem restore_owners (shaped : saved.mismatch? = none) (block : Block μ) :
    block.restore saved = restoreAll (restoringOwners.map (restoreOwner saved)) block := by
  obtain ⟨-, -, -, all⟩ := Snapshot.lengths shaped
  obtain ⟨first, second, dma⟩ := List.length_eq_two.1 all
  have engine : restoreAll [(restorePart saved .dma : Restoration μ)] =
      restoreAll (((List.finRange Dma.channelCount).map .channel).map (restoreOwner saved)) := by
    have parts : ((List.finRange Dma.channelCount).map Owner.channel).map (restoreOwner saved) =
        [(restoreChannel 0 first : Restoration μ), restoreChannel 1 second] := by
      obtain ⟨misc, controller, timers, uarts, dma⟩ := saved
      subst dma
      rfl
    rw [parts, restoreAll_singleton, ← restoreDma_eq, restorePart, dma]
  have others : ([Part.misc, .controller] ++ (List.finRange timerCount).map Part.timer
        ++ (List.finRange uartCount).map Part.uart).map (restorePart saved : Part → Restoration μ) =
      ([Owner.misc, .controller] ++ (List.finRange timerCount).map Owner.timer
        ++ (List.finRange uartCount).map Owner.uart).map (restoreOwner saved) := by
    simp only [List.map_append, List.map_map]
    rfl
  unfold restore restoringOwners
  rw [shaped, restorations_eq shaped, List.map_append, ← others]
  unfold restoringOrder
  rw [List.map_append]
  exact restoreAll_append_congr _ engine block

/-! ## Where the restoration stops -/

/-- There are as many parts in the saved block as there are instances. -/
def Snapshot.IsWhole (saved : Snapshot) : Prop :=
  saved.misc.length = miscRegisters.length ∧ saved.timers.length = timerCount ∧
    saved.uarts.length = uartCount ∧ saved.dma.length = Dma.channelCount

theorem Snapshot.mismatch?_of_isWhole (whole : saved.IsWhole) : saved.mismatch? = none := by
  obtain ⟨misc, timers, uarts, dma⟩ := whole
  simp [mismatch?, misc, timers, uarts, dma]

theorem Snapshot.mismatch?_of_not_isWhole (broken : ¬ saved.IsWhole) :
    ∃ reason, saved.mismatch? = some (.snapshotMismatch reason) := by
  cases stands : saved.mismatch? with
  | none => exact absurd (lengths stands) broken
  | some error =>
      have obstacle : saved.obstacle? {} = some (.mismatch error) := by
        unfold obstacle?
        rw [stands]
      obtain ⟨reason, rfl⟩ := saved.obstacle_befits {} _ obstacle
      exact ⟨reason, rfl⟩

/-- The first refusal among the instances, in the order in which they take over their parts. -/
theorem exists_first_refusal (shaped : saved.mismatch? = none)
    (near : ∀ owner : Owner,
      owner.IsNear saved block ∨ ∃ error, owner.Refuses saved block error)
    (refused : ∃ owner error, Owner.Refuses saved block error owner) :
    ∃ earlier rejecting later error, restoringOwners = earlier ++ rejecting :: later ∧
      (∀ owner ∈ earlier, owner.Accepts saved block) ∧
      rejecting.Refuses saved block error := by
  obtain ⟨owner, error, refuses⟩ := refused
  have found : (restoringOwners.find? fun owner => (owner.obstacle? saved block).isSome).isSome :=
    List.find?_isSome.2 ⟨owner, mem_restoringOwners owner, by
      rw [(Owner.refuses_iff shaped).1 refuses]; rfl⟩
  obtain ⟨rejecting, first⟩ := Option.isSome_iff_exists.1 found
  obtain ⟨stands, earlier, later, order, clear⟩ := List.find?_eq_some_iff_append.1 first
  obtain ⟨obstacle, stands⟩ := Option.isSome_iff_exists.1 stands
  obtain ⟨error, refuses⟩ := Owner.refuses_of_obstacle shaped (near rejecting) stands
  refine ⟨earlier, rejecting, later, error, order, fun owner listed => ?_, refuses⟩
  have none := clear owner listed
  exact (Owner.accepts_iff shaped).2 (by simpa using none)

section Reached

variable [Bus μ]

theorem distinct_lasting :
    Lasting (fun _ => True) fun block : Block μ => block.clock.Distinct block.held where
  act distinct act := (act.uses UInt64.zero_le fun saved _ => saved.ahead_zero).distinct distinct
  moved distinct done := by
    obtain ⟨clock, moving, rfl⟩ := of_increment done
    exact ⟨distinct.nodup, fun deadline known =>
      (Clock.issued_of_increment moving).symm ▸ distinct.issued deadline known⟩

/-- However a block was reached, its clock has issued what it holds. -/
theorem Reached.distinct (reached : block.Reached) : block.clock.Distinct block.held := by
  induction reached with
  | create used created =>
      obtain ⟨-, rfl⟩ := of_create created
      rw [held_initial]
      exact ⟨Multiset.nodup_zero, fun _ known => absurd known (Multiset.notMem_zero _)⟩
  | perform _ command done distinct =>
      cases command with
      | placeDeadline cycles =>
          obtain ⟨⟨deadline, clock⟩, placed, same⟩ := Run.outcome_bind_eq_ok.1 done
          cases same
          have serves : Clock.Serves 0 0 {deadline} _ clock := .scheduleIn placed UInt64.zero_le
          exact ⟨distinct.nodup, fun other known =>
            (distinct.issued other known).trans_le serves.follows.issued⟩
      | _ => exact distinct_lasting.perform distinct (by trivial) (by trivial) _ done
  | cancel _ done distinct =>
      cases Clock.of_cancel done
      exact ⟨distinct.nodup, distinct.issued⟩

/-- Whatever was done to the block, and whatever the saved block is. If a part is missing or there
is one too many, restoring answers that and changes nothing. Otherwise, where every part that is not
refused has near times in it, and some instance refuses its part, restoring answers with the error
of the first that does. The instances before it are as their own restoring leaves them; it and all
after it are as they were, and so are their deadlines; nobody else's deadline and no other memory
is touched; and no line is driven but by the controller that took over its part. -/
theorem restore_stops (reached : block.Reached) (saved : Snapshot) :
    (¬ saved.IsWhole → ∃ reason,
      block.restore saved = ⟨.ok (.error (.snapshotMismatch reason), block), []⟩) ∧
    (saved.IsWhole →
      (∀ owner : Owner,
        owner.IsNear saved block ∨ ∃ error, owner.Refuses saved block error) →
      (∃ owner error, Owner.Refuses saved block error owner) →
      ∃ earlier rejecting later error after,
        restoringOwners = earlier ++ rejecting :: later ∧
        (∀ owner ∈ earlier, owner.Accepts saved block) ∧
        rejecting.Refuses saved block error ∧
        block.restore saved
          = ⟨.ok (.error error, after), earlier.flatMap (Owner.told saved block)⟩ ∧
        Boundary saved earlier block after ∧
        ∀ owner ∈ rejecting :: later, owner.Agrees block after ∧
          ∀ deadline ∈ owner.held block,
            (deadline ∈ after.clock.pending ↔ deadline ∈ block.clock.pending)) := by
  have distinct := reached.distinct
  refine ⟨fun broken => ?_, fun whole near refused => ?_⟩
  · obtain ⟨reason, stands⟩ := Snapshot.mismatch?_of_not_isWhole broken
    refine ⟨reason, ?_⟩
    unfold restore
    rw [stands]
    rfl
  have shaped := Snapshot.mismatch?_of_isWhole whole
  obtain ⟨earlier, rejecting, later, error, order, accept, refuses⟩ :=
    exists_first_refusal shaped near refused
  have apart : (earlier ++ rejecting :: later).Nodup := order ▸ nodup_restoringOwners
  obtain ⟨distinctEarlier, -, separate⟩ := List.nodup_append.1 apart
  have missing {owner : Owner} (listed : owner ∈ rejecting :: later) : owner ∉ earlier :=
    fun known => separate owner known owner listed rfl
  have old (owner : Owner) (deadline : Deadline) (known : deadline ∈ owner.held block) :
      deadline.serial < block.clock.issued :=
    distinct.issued deadline (Multiset.mem_of_le (owner.held_le block) known)
  obtain ⟨after, ran, boundary⟩ := restoreAll_boundary shaped distinctEarlier old
    fun owner listed => (Owner.accepts_iff shaped).1 (accept owner listed)
  refine ⟨earlier, rejecting, later, error, after, order, accept, refuses, ?_, boundary,
    fun owner listed => ⟨boundary.left owner (missing listed), fun deadline known => ?_⟩⟩
  · have mine := boundary.left rejecting (missing List.mem_cons_self)
    have stops : restoreOwner saved rejecting after = ⟨.ok (.error error, after), []⟩ :=
      restoreOwner_of_mismatch shaped
        ((mine.obstacle_eq saved).trans ((Owner.refuses_iff shaped).1 refuses))
    rw [restore_owners shaped, order, List.map_append, restoreAll_append, ran]
    refine (Run.bind_of_ok rfl _).trans ?_
    dsimp only [restoreRest]
    rw [List.map_cons, restoreAll_cons, stops]
    exact congrArg (Run.mk _) (List.append_nil _)
  · rw [boundary.pending]
    have foreign : ∀ other ∈ earlier, deadline ∉ other.held block := fun other before =>
      Owner.held_apart distinct (separate other before owner listed).symm known
    have unplaced : ¬ ∃ other ∈ earlier, deadline ∈ other.held after := by
      rintro ⟨other, before, placed⟩
      exact absurd (boundary.fresh other before deadline placed)
        (Nat.not_le.2 (old owner deadline known))
    exact ⟨fun either => either.elim And.left fun placed => absurd placed unplaced,
      fun pending => .inl ⟨pending, foreign⟩⟩

end Reached

/-- A block whose first timer runs, and a block as at power-on of whose first serial interface no
register was saved. -/
theorem restore_stops_short :
    let fresh := (initial {} {} Ram.empty).snapshot
    let short : Uart.Snapshot :=
      { regs := [], received := [], sending := none, lineLow := false, breakRemaining := none }
    let saved := { fresh with uarts := fresh.uarts.set 0 short }
    ∃ block : Block Ram, block.Reached ∧ saved.IsWhole ∧
      (∀ owner : Owner, owner.IsNear saved block) ∧
      (Owner.uart 0).Refuses saved block (.snapshotMismatch "uart registers") ∧
      ∃ error after events, block.restore saved = ⟨.ok (.error error, after), events⟩ ∧
        after.uarts[0] = block.uarts[0] := by
  intro fresh short saved
  obtain ⟨response, block, done⟩ : ∃ response block, ((initial {} {} Ram.empty).perform
      (.write .word 0x1400 1)).outcome = .ok (response, block) := ⟨_, _, rfl⟩
  have created : create {} {} Ram.empty = .ok (initial {} {} Ram.empty) := rfl
  have reached : block.Reached := .perform (.create (.fresh 0 0) created) _ done
  have whole : saved.IsWhole := ⟨rfl, rfl, rfl, rfl⟩
  have stopped : ∀ part ∈ saved.timers, part.running = false := by decide
  have silent : ∀ part ∈ saved.uarts, part.sending = none ∧ part.breakRemaining = none := by decide
  have idle : ∀ part ∈ saved.dma, part.transfer = none := by decide
  have near (owner : Owner) : owner.IsNear saved block := by
    cases owner with
    | misc | controller => trivial
    | timer index =>
        intro part listed running
        rw [stopped part (List.mem_of_getElem? listed)] at running
        contradiction
    | uart index =>
        intro part listed
        obtain ⟨sending, breaking⟩ := silent part (List.mem_of_getElem? listed)
        exact ⟨by simp [sending], by simp [breaking]⟩
    | channel index =>
        intro part listed transfer known
        rw [idle part (List.mem_of_getElem? listed)] at known
        contradiction
  have shaped := Snapshot.mismatch?_of_isWhole whole
  have refuses : (Owner.uart 0).Refuses saved block (.snapshotMismatch "uart registers") :=
    (Owner.refuses_iff shaped).2 rfl
  obtain ⟨earlier, rejecting, later, error, after, order, accept, -, ran, boundary, -⟩ :=
    (restore_stops reached saved).2 whole (fun owner => .inl (near owner)) ⟨_, _, refuses⟩
  have missing : Owner.uart 0 ∉ earlier := fun listed => by
    have both := (accept _ listed).symm.trans refuses
    cases both
  exact ⟨block, reached, whole, near, refuses, error, after, _, ran, boundary.left _ missing⟩

end Block

end SocPeripherals
