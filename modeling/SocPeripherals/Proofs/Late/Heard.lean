import SocPeripherals.Proofs.Interrupt

/-!
# What is heard of a poll

While devices only ask for interrupts, the line of the controller can only rise. What is heard of
them comes down to the sources that they ask for, whether the line rises, and the bytes that are
sent on each port; in which order they speak makes no difference to the first two.
-/

namespace SocPeripherals

/-- The mask bits of the interrupts that are asked for. -/
def Signal.posted : List Signal → UInt32
  | [] => 0
  | .interrupt source :: rest => Interrupt.sourceBit source ||| posted rest
  | _ :: rest => posted rest

/-- The byte sent on a port. -/
def Signal.sent? (port : Nat) : Signal → Option UInt8
  | .transmit uart byte => if uart = port then some byte else none
  | _ => none

/-- The byte sent on a port. -/
def Event.sent? (port : Nat) : Event → Option UInt8
  | .transmit uart byte => if uart = port then some byte else none
  | _ => none

/-- The new level of the interrupt line. -/
def Event.level? : Event → Option Bool
  | .line high _ => some high
  | _ => none

/-- What a host is called for: a level of the line, or a byte that is sent. -/
def Event.call? : Event → Option (Bool ⊕ UInt8)
  | .line high _ => some (.inl high)
  | .transmit _ byte => some (.inr byte)
  | _ => none

theorem Signal.posted_append (first second : List Signal) :
    posted (first ++ second) = posted first ||| posted second := by
  induction first with
  | nil => simp [posted]
  | cons signal rest ih => cases signal <;> simp [posted, ih, UInt32.or_assoc]

/-- The levels that a line takes which was at one level and is at another. -/
def rise (before after : Bool) : List Bool := if before = after then [] else [after]

@[simp]
theorem rise_self (level : Bool) : rise level level = [] := if_pos rfl

/-- A line that does not fall rises at most once. -/
theorem rise_append {before between after : Bool} (first : before = true → between = true)
    (second : between = true → after = true) :
    rise before between ++ rise between after = rise before after := by
  cases before <;> cases between <;> cases after <;> simp_all [rise]

namespace Traced

variable {α β : Type} {first second third : Traced Signal α}

/-- Two operations come to one value, ask for the same interrupts and send the same bytes. -/
structure SameEffect (first second : Traced Signal α) : Prop where
  value : second.value = first.value
  posted : Signal.posted second.signals = Signal.posted first.signals
  sent : ∀ port, second.signals.filterMap (Signal.sent? port)
    = first.signals.filterMap (Signal.sent? port)

theorem SameEffect.ofEq (same : first = second) : SameEffect first second := by
  subst same
  exact ⟨rfl, rfl, fun _ => rfl⟩

theorem SameEffect.trans (same : SameEffect first second) (sameNext : SameEffect second third) :
    SameEffect first third where
  value := sameNext.value.trans same.value
  posted := sameNext.posted.trans same.posted
  sent port := (sameNext.sent port).trans (same.sent port)

theorem SameEffect.bind (same : SameEffect first second) {next other : α → Traced Signal β}
    (rest : SameEffect (next first.value) (other first.value)) :
    SameEffect (first >>= next) (second >>= other) where
  value := by rw [value_bind, value_bind, same.value, rest.value]
  posted := by
    rw [signals_bind, signals_bind, Signal.posted_append, Signal.posted_append, same.posted,
      same.value, rest.posted]
  sent port := by
    rw [signals_bind, signals_bind, List.filterMap_append, List.filterMap_append, same.sent,
      same.value, rest.sent]

/-- Two steps may be taken in either order, if each signals after the other what it does before it
and the first sends nothing. -/
theorem SameEffect.comm {next other : α → Traced Signal α}
    (value : (other second.value).value = (next first.value).value)
    (signals : (next first.value).signals = second.signals)
    (signalsOther : (other second.value).signals = first.signals)
    (silent : ∀ port, first.signals.filterMap (Signal.sent? port) = []) :
    SameEffect (first >>= next) (second >>= other) where
  value := value
  posted := by
    rw [signals_bind, signals_bind, signals, signalsOther, Signal.posted_append,
      Signal.posted_append]
    exact UInt32.or_comm _ _
  sent port := by
    rw [signals_bind, signals_bind, signals, signalsOther, List.filterMap_append,
      List.filterMap_append, silent, List.append_nil, List.nil_append]

end Traced

namespace Interrupt.Controller

variable {controller between after : Controller}

/-- The controller with more sources pending. -/
def raised (controller : Controller) (bits : UInt32) : Controller :=
  driven { controller with bank := controller.bank.setBits pendingIndex bits }

/-- All bits of the pending register can be set. -/
theorem setBits_pending (bank : Bank registers) (bits : UInt32) :
    bank.setBits pendingIndex bits = bank.put pendingIndex (bank.get pendingIndex ||| bits) :=
  congrArg (bank.put pendingIndex) UInt32.and_neg_one

theorem raised_zero (driven : controller.IsDriven) : controller.raised 0 = controller := by
  obtain ⟨bank, line⟩ := controller
  have same : bank.setBits pendingIndex 0 = bank := by
    rw [setBits_pending, UInt32.or_zero, Bank.put_get]
  unfold raised
  dsimp only
  rw [same]
  exact congrArg (mk bank) driven.symm

theorem raised_raised (controller : Controller) (first second : UInt32) :
    (controller.raised first).raised second = controller.raised (first ||| second) := by
  have same : (controller.bank.setBits pendingIndex first).setBits pendingIndex second
      = controller.bank.setBits pendingIndex (first ||| second) := by
    rw [setBits_pending, setBits_pending, setBits_pending, Bank.get_put_self, UInt32.or_assoc,
      Bank.put_put]
  exact congrArg (fun bank => driven { bank, line := controller.line }) same

theorem isDriven_raised (controller : Controller) (bits : UInt32) :
    (controller.raised bits).IsDriven := rfl

theorem pending_raised (controller : Controller) (bits : UInt32) :
    (controller.raised bits).pending = controller.pending ||| bits := by
  unfold raised Controller.driven pending
  rw [setBits_pending, Bank.get_put_self]

/-- More pending sources keep the line high. -/
theorem line_raised (driven : controller.IsDriven) (bits : UInt32)
    (high : controller.line = true) : (controller.raised bits).line = true := by
  have enabled : (controller.raised bits).enabled = controller.enabled :=
    Bank.get_put_of_ne _ (by decide) _
  rw [driven] at high
  rw [isDriven_raised controller bits]
  unfold demands active at *
  rw [pending_raised, enabled]
  rw [bne_iff_ne] at *
  intro none
  refine high (UInt32.toBitVec_inj.1 (BitVec.eq_of_getLsbD_eq fun position _ => ?_))
  have bit := congrArg (fun mask => mask.toBitVec.getLsbD position) none
  simp at bit ⊢
  grind

/-- What is heard of a run of signals. -/
structure Heard (controller : Controller) (signals : List Signal) (after : Controller)
    (events : List Event) : Prop where
  value : after = controller.raised (Signal.posted signals)
  levels : events.filterMap Event.level? = rise controller.line after.line
  sent : ∀ port, events.filterMap (Event.sent? port) = signals.filterMap (Signal.sent? port)

theorem Heard.refl (driven : controller.IsDriven) : Heard controller [] controller [] where
  value := (raised_zero driven).symm
  levels := (rise_self _).symm
  sent _ := rfl

theorem Heard.trans (driven : controller.IsDriven) {signals more : List Signal}
    {events further : List Event} (first : Heard controller signals between events)
    (second : Heard between more after further) :
    Heard controller (signals ++ more) after (events ++ further) where
  value := by rw [second.value, first.value, raised_raised, Signal.posted_append]
  levels := by
    rw [List.filterMap_append, first.levels, second.levels]
    refine rise_append ?_ ?_
    · rw [first.value]
      exact line_raised driven _
    · rw [second.value]
      exact line_raised (first.value ▸ isDriven_raised controller _) _
  sent port := by rw [List.filterMap_append, List.filterMap_append, first.sent, second.sent]

theorem Heard.isDriven {signals : List Signal} {events : List Event}
    (heard : Heard controller signals after events) : after.IsDriven :=
  heard.value ▸ isDriven_raised controller _

theorem heard_drive (controller : Controller) :
    controller.drive.signals.filterMap Event.level?
        = rise controller.line controller.driven.line ∧
      ∀ port, controller.drive.signals.filterMap (Event.sent? port) = [] := by
  unfold drive rise
  split
  next same => exact ⟨(if_pos same).symm, fun _ => rfl⟩
  next apart => exact ⟨(if_neg apart).symm, fun _ => rfl⟩

theorem hear_heard (driven : controller.IsDriven) (signal : Signal) :
    Heard controller [signal] (controller.hear signal).value (controller.hear signal).signals := by
  cases signal with
  | note remark => exact ⟨(raised_zero driven).symm, (rise_self _).symm, fun _ => rfl⟩
  | host call => exact ⟨(raised_zero driven).symm, (rise_self _).symm, fun _ => rfl⟩
  | transmit uart byte => exact ⟨(raised_zero driven).symm, (rise_self _).symm, fun _ => rfl⟩
  | interrupt source =>
      have single : Signal.posted [.interrupt source] = sourceBit source := UInt32.or_zero
      obtain ⟨levels, sent⟩ := heard_drive
        { controller with bank := controller.bank.setBits pendingIndex (sourceBit source) }
      have value := value_drive
        { controller with bank := controller.bank.setBits pendingIndex (sourceBit source) }
      refine ⟨?_, ?_, sent⟩
      · rw [single]
        exact value
      · rw [hear, post, value]
        exact levels

/-- Whatever is signalled, the line follows the requests for interrupts. -/
theorem hearAll_heard (driven : controller.IsDriven) (signals : List Signal) :
    Heard controller signals (controller.hearAll signals).value
      (controller.hearAll signals).signals := by
  induction signals generalizing controller with
  | nil => exact .refl driven
  | cons signal rest ih =>
      have first := hear_heard driven signal
      exact first.trans driven (ih first.isDriven)

/-- Whoever speaks first, the controller comes to the same and the line takes the same levels. -/
theorem hearAll_comm (driven : controller.IsDriven) (first second : List Signal) :
    (controller.hearAll (second ++ first)).value = (controller.hearAll (first ++ second)).value ∧
      (controller.hearAll (second ++ first)).signals.filterMap Event.level?
        = (controller.hearAll (first ++ second)).signals.filterMap Event.level? := by
  have forth := hearAll_heard driven (first ++ second)
  have back := hearAll_heard driven (second ++ first)
  have same : (controller.hearAll (second ++ first)).value
      = (controller.hearAll (first ++ second)).value := by
    rw [forth.value, back.value, Signal.posted_append, Signal.posted_append, UInt32.or_comm]
  exact ⟨same, by rw [forth.levels, back.levels, same]⟩

end Interrupt.Controller

end SocPeripherals
