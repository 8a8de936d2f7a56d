import SocPeripherals.Bench
import SocPeripherals.Proofs.Interrupt

/-!
# What is seen of a device on a bench

Remarks are for a log: they change neither a device nor what surrounds it. Two operations of a
device that come to one outcome and signal the same but for remarks leave one bench behind, and the
surroundings see the same but for remarks. What a device does in several operations is heard as if
it were one.
-/

namespace SocPeripherals

namespace Run

variable {ε α β : Type} {remark : ε → Bool} {first second third : Run ε α}

/-- Two operations come to one outcome, and signal the same but for remarks. -/
structure Agrees (remark : ε → Bool) (first second : Run ε α) : Prop where
  outcome : first.outcome = second.outcome
  signals : first.signals.filter (!remark ·) = second.signals.filter (!remark ·)

namespace Agrees

theorem refl (run : Run ε α) : run.Agrees remark run := ⟨rfl, rfl⟩

theorem symm (agrees : first.Agrees remark second) : second.Agrees remark first :=
  ⟨agrees.outcome.symm, agrees.signals.symm⟩

theorem trans (agrees : first.Agrees remark second) (agreesToo : second.Agrees remark third) :
    first.Agrees remark third :=
  ⟨agrees.outcome.trans agreesToo.outcome, agrees.signals.trans agreesToo.signals⟩

/-- What goes on from one value alike agrees. -/
theorem bind {holds : α → Prop} {next other : α → Run ε β} (agrees : first.Agrees remark second)
    (ensured : first.Ensures holds)
    (rest : ∀ value, holds value → (next value).Agrees remark (other value)) :
    (first >>= next).Agrees remark (second >>= other) := by
  have same := agrees.outcome
  cases came : first.outcome with
  | error reason =>
      rw [came] at same
      rw [bind_of_error came, bind_of_error same.symm]
      exact ⟨rfl, agrees.signals⟩
  | ok value =>
      rw [came] at same
      have further := rest value (ensured value came)
      rw [bind_of_ok came, bind_of_ok same.symm]
      refine ⟨further.outcome, ?_⟩
      rw [List.filter_append, List.filter_append, agrees.signals, further.signals]

theorem map (agrees : first.Agrees remark second) (change : α → β) :
    (change <$> first).Agrees remark (change <$> second) := by
  rw [← bind_pure_comp, ← bind_pure_comp]
  exact agrees.bind (.trivial first) fun value _ => .refl (pure (change value))

/-- What follows remarks. -/
theorem afterRemarks {traced : Traced ε α} (none : traced.signals.filter (!remark ·) = [])
    (next : α → Run ε β) : (Run.ofTraced traced >>= next).Agrees remark (next traced.value) := by
  rw [bind_of_ok rfl]
  refine ⟨rfl, ?_⟩
  rw [List.filter_append]
  exact congrArg (· ++ _) none

theorem afterRemark {event : ε} (remarked : remark event = true) (run : Run ε α) :
    (Run.signal event >>= fun _ => run).Agrees remark run := by
  have none : [event].filter (!remark ·) = [] := List.filter_cons_of_neg (by simp [remarked])
  exact afterRemarks (Traced.signals_signal event ▸ none) fun _ => run

end Agrees

end Run

/-- The signal is a remark. -/
def Signal.isRemark : Signal → Bool
  | .note _ => true
  | _ => false

/-- The event is a remark. -/
def Event.isRemark : Event → Bool
  | .note _ => true
  | _ => false

/-- The remarks about an access are nothing else. -/
theorem Selection.noted_remarks (device : String) (table : List Register) (width : Width)
    (address : UInt32) :
    (noted Signal.note device table width address).signals.filter (!Signal.isRemark ·) = [] := by
  refine List.filter_eq_nil_iff.2 fun signal signalled => ?_
  obtain ⟨remark, _, rfl⟩ := List.mem_map.1 signalled
  exact Bool.false_ne_true

namespace Interrupt.Controller

/-- Remarks make no difference to what is heard. -/
theorem hearAll_filter (controller : Controller) (signals : List Signal) :
    (controller.hearAll (signals.filter (!Signal.isRemark ·))).value
        = (controller.hearAll signals).value ∧
      (controller.hearAll (signals.filter (!Signal.isRemark ·))).signals.filter (!Event.isRemark ·)
        = (controller.hearAll signals).signals.filter (!Event.isRemark ·) := by
  induction signals generalizing controller with
  | nil => exact ⟨rfl, rfl⟩
  | cons signal rest ih =>
      obtain ⟨value, signals⟩ := ih (controller.hear signal).value
      cases signal with
      | note remark => exact ⟨value, signals⟩
      | _ =>
          rw [List.filter_cons_of_pos rfl, hearAll, hearAll, Traced.signals_bind,
            Traced.signals_bind, List.filter_append, List.filter_append]
          exact ⟨value, congrArg _ signals⟩

end Interrupt.Controller

namespace Bench

variable {δ α : Type}

/-- What becomes of the bench when its device acts. -/
def settle (bench : Bench δ) (run : Run Signal (δ × Clock)) : Run Event (Bench δ) :=
  let heard := bench.controller.hearAll run.signals
  ⟨run.outcome.map fun (device, clock) => { clock, controller := heard.value, device },
    heard.signals⟩

theorem snd_act (bench : Bench δ) (action : δ → Clock → Run Signal (α × δ × Clock)) :
    Prod.snd <$> bench.act action
      = bench.settle (Prod.snd <$> action bench.device bench.clock) := by
  unfold act settle Interrupt.Controller.relay
  generalize action bench.device bench.clock = run
  obtain ⟨outcome, signals⟩ := run
  cases outcome with
  | error reason => rfl
  | ok value => simp [Except.map]

/-- The bench answers what the device answers. -/
theorem fst_act (bench : Bench δ) (action : δ → Clock → Run Signal (α × δ × Clock)) :
    (Prod.fst <$> bench.act action).outcome
      = (Prod.fst <$> action bench.device bench.clock).outcome := by
  unfold act Interrupt.Controller.relay
  generalize action bench.device bench.clock = run
  obtain ⟨outcome, signals⟩ := run
  cases outcome with
  | error reason => rfl
  | ok value => simp [Except.map]

theorem settle_agrees (bench : Bench δ) {first second : Run Signal (δ × Clock)}
    (agrees : first.Agrees Signal.isRemark second) :
    (bench.settle first).Agrees Event.isRemark (bench.settle second) := by
  obtain ⟨value, signals⟩ := bench.controller.hearAll_filter first.signals
  obtain ⟨valueToo, signalsToo⟩ := bench.controller.hearAll_filter second.signals
  rw [agrees.signals] at value signals
  unfold settle
  constructor
  · dsimp only
    rw [← value, ← valueToo, agrees.outcome]
  · exact signals.symm.trans signalsToo

/-- What a device does in two operations is heard as if it were one. -/
theorem settle_bind (bench : Bench δ) (first : Run Signal (δ × Clock))
    (next : δ → Clock → Run Signal (δ × Clock)) :
    (bench.settle first >>= fun after => after.settle (next after.device after.clock)) =
      bench.settle (first >>= fun (device, clock) => next device clock) := by
  obtain ⟨outcome, signals⟩ := first
  cases outcome with
  | error reason => rfl
  | ok value =>
      unfold settle
      rw [Run.bind_of_ok rfl, Run.bind_of_ok rfl, Interrupt.Controller.hearAll_append]
      rfl

theorem settle_pure (bench : Bench δ) :
    bench.settle (pure (bench.device, bench.clock)) = pure bench := rfl

variable [Device δ]

/-- What a device makes of words that are written to it in order. -/
def writeAll (device : δ) (clock : Clock) : List (UInt32 × UInt32) → Run Signal (δ × Clock)
  | [] => pure (device, clock)
  | (address, value) :: rest => do
      let (_, device, clock) ← Device.write device clock .word address value
      writeAll device clock rest

/-- Words that are written in order. -/
theorem performAll_words (bench : Bench δ) (words : List (UInt32 × UInt32)) :
    Prod.snd <$> bench.performAll (words.map fun (address, value) => .write .word address value) =
      bench.settle (writeAll bench.device bench.clock words) := by
  induction words generalizing bench with
  | nil => exact (map_pure _ _).trans bench.settle_pure.symm
  | cons word rest ih =>
      obtain ⟨address, value⟩ := word
      have here := bench.snd_act fun device clock => Device.write device clock .word address value
      have written : Prod.snd <$> bench.performAll
          (((address, value) :: rest).map fun (address, value) => .write .word address value) =
          (Prod.snd <$> bench.write .word address value) >>= fun after =>
            Prod.snd <$> after.performAll
              (rest.map fun (address, value) => .write .word address value) := by
        simp [performAll, perform]
      rw [written, write, here]
      simp only [ih]
      rw [bench.settle_bind _ fun device clock => writeAll device clock rest]
      congr 1
      simp [writeAll]

end Bench

end SocPeripherals
