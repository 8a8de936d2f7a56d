import Mathlib.Data.List.Chain
import SocPeripherals.Run

/-!
# Reasoning about runs

`Ensures` says what holds of every value that an operation can come to. `Matches` compares two
operations: they signal the same, and either both end with one fault or both come to values
that are related. Both follow the steps of an operation.
-/

namespace SocPeripherals

/-- A chain goes on from its last member. -/
theorem isChain_append {α : Type} {related : α → α → Prop} {first : α} {before further : List α}
    (chain : (first :: before).IsChain related)
    (rest : (before.getLastD first :: further).IsChain related) :
    (first :: (before ++ further)).IsChain related := by
  induction before generalizing first with
  | nil => exact rest
  | cons next others ih =>
      obtain ⟨here, chained⟩ := List.isChain_cons_cons.1 chain
      rw [List.getLastD_cons] at rest
      exact List.isChain_cons_cons.2 ⟨here, ih chained rest⟩

namespace Traced

variable {ε α β γ δ : Type}

/-- Two operations signal the same and come to related values. -/
def Matches (related : α → β → Prop) (first : Traced ε α) (second : Traced ε β) : Prop :=
  first.signals = second.signals ∧ related first.value second.value

theorem Matches.pure {related : α → β → Prop} {left : α} {right : β} (holds : related left right) :
    Matches (ε := ε) related (pure left) (pure right) :=
  ⟨rfl, holds⟩

theorem Matches.mk {related : α → β → Prop} {left : α} {right : β} (signals : List ε)
    (holds : related left right) : Matches related ⟨left, signals⟩ ⟨right, signals⟩ :=
  ⟨rfl, holds⟩

theorem Matches.bind {related : α → β → Prop} {relatedNext : γ → δ → Prop}
    {first : Traced ε α} {second : Traced ε β} {next : α → Traced ε γ} {nextOther : β → Traced ε δ}
    (matched : Matches related first second)
    (rest : ∀ left right, related left right → Matches relatedNext (next left) (nextOther right)) :
    Matches relatedNext (first >>= next) (second >>= nextOther) := by
  obtain ⟨sameSignals, holds⟩ := matched
  obtain ⟨sameRest, holdsRest⟩ := rest _ _ holds
  exact ⟨by simp [sameSignals, sameRest], holdsRest⟩

theorem Matches.refl (traced : Traced ε α) : Matches Eq traced traced := ⟨rfl, rfl⟩

variable {fatal : ε → Prop}

/-- The operation signals nothing fatal. -/
def IsHarmless (fatal : ε → Prop) (traced : Traced ε α) : Prop :=
  ∀ signal ∈ traced.signals, ¬fatal signal

variable {kind other : ε → Prop}

/-- Everything that the operation signals is of a kind. -/
def SignalsOnly (kind : ε → Prop) (traced : Traced ε α) : Prop :=
  ∀ signal ∈ traced.signals, kind signal

theorem SignalsOnly.pure (value : α) : SignalsOnly kind (pure value) :=
  fun _ signalled => absurd signalled List.not_mem_nil

theorem SignalsOnly.signal {event : ε} (known : kind event) :
    SignalsOnly kind (Traced.signal event) := by
  intro other signalled
  rw [List.mem_singleton.1 signalled]
  exact known

theorem SignalsOnly.bind {first : Traced ε α} {next : α → Traced ε β}
    (before : first.SignalsOnly kind) (rest : (next first.value).SignalsOnly kind) :
    (first >>= next).SignalsOnly kind := by
  intro signal signalled
  rcases List.mem_append.1 signalled with signalled | signalled
  · exact before signal signalled
  · exact rest signal signalled

theorem SignalsOnly.imp {traced : Traced ε α} (only : traced.SignalsOnly kind)
    (implies : ∀ signal, kind signal → other signal) : traced.SignalsOnly other :=
  fun signal signalled => implies signal (only signal signalled)

theorem IsHarmless.pure (value : α) : IsHarmless fatal (pure value) := SignalsOnly.pure value

theorem IsHarmless.signal {event : ε} (harmless : ¬fatal event) :
    IsHarmless fatal (Traced.signal event) :=
  SignalsOnly.signal harmless

theorem IsHarmless.bind {first : Traced ε α} {next : α → Traced ε β}
    (harmless : first.IsHarmless fatal) (rest : (next first.value).IsHarmless fatal) :
    (first >>= next).IsHarmless fatal :=
  SignalsOnly.bind harmless rest

/-- What signals only what is not fatal is harmless. -/
theorem SignalsOnly.isHarmless {traced : Traced ε α} (only : traced.SignalsOnly kind)
    (spares : ∀ signal, kind signal → ¬fatal signal) : traced.IsHarmless fatal :=
  only.imp spares

end Traced

namespace Run

variable {ε α β γ δ : Type}

/-- An operation that comes to its end tells what it tells before anything goes on. -/
theorem liftM_bind (traced : Traced ε α) (next : α → Run ε β) :
    (liftM traced >>= next : Run ε β)
      = Run.ofTraced (Traced.signalAll traced.signals) >>= fun _ => next traced.value := rfl

@[simp]
theorem map_ok (change : α → β) (value : α) (signals : List ε) :
    (change <$> (⟨.ok value, signals⟩ : Run ε α)) = ⟨.ok (change value), signals⟩ := by
  simp [Functor.map, andThen]

@[simp]
theorem map_error (change : α → β) (fault : Fault) (signals : List ε) :
    (change <$> (⟨.error fault, signals⟩ : Run ε α)) = ⟨.error fault, signals⟩ := rfl

theorem outcome_map (change : α → β) (run : Run ε α) :
    (change <$> run).outcome = run.outcome.map change := by
  obtain ⟨outcome, signals⟩ := run
  cases outcome <;> rfl

theorem signals_map (change : α → β) (run : Run ε α) : (change <$> run).signals = run.signals := by
  obtain ⟨outcome, signals⟩ := run
  cases outcome with
  | error fault => rfl
  | ok value => exact List.append_nil signals

theorem liftM_except_bind (first : Except Fault α) (next : α → Except Fault β) :
    (liftM (first >>= next) : Run ε β) = liftM first >>= fun value => liftM (next value) := by
  cases first <;> rfl

theorem bind_of_error {first : Run ε α} {reason : Fault} (failed : first.outcome = .error reason)
    (next : α → Run ε β) : (first >>= next) = ⟨.error reason, first.signals⟩ := by
  simp [Bind.bind, andThen, failed]

theorem except_bind_eq_ok {first : Except Fault α} {next : α → Except Fault β} {result : β} :
    (first >>= next) = .ok result ↔ ∃ value, first = .ok value ∧ next value = .ok result := by
  cases first <;> simp [bind, Except.bind]

theorem except_map_eq_ok {first : Except Fault α} {change : α → β} {result : β} :
    first.map change = .ok result ↔ ∃ value, first = .ok value ∧ change value = result := by
  cases first <;> simp [Except.map]

/-! ## What holds of the value -/

/-- Every value that the operation comes to has the property. -/
def Ensures (run : Run ε α) (holds : α → Prop) : Prop :=
  ∀ value, run.outcome = .ok value → holds value

theorem Ensures.pure {holds : α → Prop} {value : α} (known : holds value) :
    Ensures (ε := ε) (pure value) holds := by
  rintro _ ⟨⟩
  exact known

theorem Ensures.bind {between : α → Prop} {holds : β → Prop} {first : Run ε α} {next : α → Run ε β}
    (ensured : first.Ensures between) (rest : ∀ value, between value → (next value).Ensures holds) :
    (first >>= next).Ensures holds := by
  intro result done
  obtain ⟨value, doneFirst, doneNext⟩ := outcome_bind_eq_ok.1 done
  exact rest value (ensured value doneFirst) result doneNext

/-- An operation ensures its own outcome. -/
theorem Ensures.own (run : Run ε α) : run.Ensures fun value => run.outcome = .ok value :=
  fun _ done => done

/-- An operation without signals ensures its own outcome. -/
theorem Ensures.except (outcome : Except Fault α) :
    (liftM outcome : Run ε α).Ensures fun value => outcome = .ok value :=
  fun _ done => done

/-- An operation that comes to its end ensures its own value. -/
theorem Ensures.traced (traced : Traced ε α) :
    (liftM traced : Run ε α).Ensures fun value => value = traced.value := by
  rintro _ ⟨⟩
  rfl

theorem Ensures.imp {holds weaker : α → Prop} {run : Run ε α} (ensured : run.Ensures holds)
    (implies : ∀ value, holds value → weaker value) : run.Ensures weaker :=
  fun value done => implies value (ensured value done)

theorem Ensures.and {holds also : α → Prop} {run : Run ε α} (first : run.Ensures holds)
    (second : run.Ensures also) : run.Ensures fun value => holds value ∧ also value :=
  fun value done => ⟨first value done, second value done⟩

/-- What follows an operation matters only on the values that it can come to. -/
theorem Ensures.bind_congr {holds : α → Prop} {run : Run ε α} {next other : α → Run ε β}
    (ensured : run.Ensures holds) (same : ∀ value, holds value → next value = other value) :
    run >>= next = run >>= other := by
  cases done : run.outcome with
  | error fault => simp [Bind.bind, andThen, done]
  | ok value => rw [bind_of_ok done, bind_of_ok done, same value (ensured value done)]

theorem Ensures.trivial (run : Run ε α) : run.Ensures fun _ => True := fun _ _ => True.intro

/-! ## What comes to an end -/

/-- The operation comes to a value that has the property. -/
def Succeeds (run : Run ε α) (holds : α → Prop) : Prop :=
  ∃ value, run.outcome = .ok value ∧ holds value

theorem Succeeds.pure {holds : α → Prop} {value : α} (known : holds value) :
    Succeeds (ε := ε) (pure value) holds :=
  ⟨value, rfl, known⟩

theorem Succeeds.bind {between : α → Prop} {holds : β → Prop} {first : Run ε α}
    {next : α → Run ε β} (succeeds : first.Succeeds between)
    (rest : ∀ value, between value → (next value).Succeeds holds) :
    (first >>= next).Succeeds holds := by
  obtain ⟨value, done, known⟩ := succeeds
  obtain ⟨result, doneNext, knownNext⟩ := rest value known
  exact ⟨result, outcome_bind_eq_ok.2 ⟨value, done, doneNext⟩, knownNext⟩

theorem Succeeds.imp {holds weaker : α → Prop} {run : Run ε α} (succeeds : run.Succeeds holds)
    (implies : ∀ value, holds value → weaker value) : run.Succeeds weaker := by
  obtain ⟨value, done, known⟩ := succeeds
  exact ⟨value, done, implies value known⟩

/-- An operation that comes to its end. -/
theorem Succeeds.traced {holds : α → Prop} {traced : Traced ε α} (known : holds traced.value) :
    (Run.ofTraced traced).Succeeds holds :=
  ⟨traced.value, rfl, known⟩

/-- An operation without signals. -/
theorem Succeeds.except {holds : α → Prop} {outcome : Except Fault α} {value : α}
    (done : outcome = .ok value) (known : holds value) :
    (liftM outcome : Run ε α).Succeeds holds :=
  ⟨value, done, known⟩

theorem Succeeds.and {holds also : α → Prop} {run : Run ε α} (succeeds : run.Succeeds holds)
    (ensured : run.Ensures also) : run.Succeeds fun value => holds value ∧ also value := by
  obtain ⟨value, done, known⟩ := succeeds
  exact ⟨value, done, known, ensured value done⟩

/-- The operation comes to a value that has the property together with what was signalled on the
way to it. -/
def Gives (run : Run ε α) (holds : α → List ε → Prop) : Prop :=
  ∃ value, run.outcome = .ok value ∧ holds value run.signals

theorem Gives.pure {holds : α → List ε → Prop} {value : α} (known : holds value []) :
    Gives (pure value) holds :=
  ⟨value, rfl, known⟩

theorem Gives.signal (event : ε) :
    (Run.signal event).Gives fun _ signals => signals = [event] :=
  ⟨(), rfl, rfl⟩

theorem Gives.bind {between : α → List ε → Prop} {holds : β → List ε → Prop} {first : Run ε α}
    {next : α → Run ε β} (gives : first.Gives between)
    (rest : ∀ value signals, between value signals →
      (next value).Gives fun result more => holds result (signals ++ more)) :
    (first >>= next).Gives holds := by
  obtain ⟨value, done, known⟩ := gives
  obtain ⟨result, doneNext, knownNext⟩ := rest value _ known
  refine ⟨result, outcome_bind_eq_ok.2 ⟨value, done, doneNext⟩, ?_⟩
  rw [bind_of_ok done]
  exact knownNext

/-- What is left to do only makes something of the value. -/
theorem Gives.conclude {between : α → List ε → Prop} {holds : β → List ε → Prop} {first : Run ε α}
    {next : α → Run ε β} (gives : first.Gives between)
    (rest : ∀ value signals, between value signals →
      ∃ result, next value = Pure.pure result ∧ holds result signals) :
    (first >>= next).Gives holds := by
  refine gives.bind fun value signals known => ?_
  obtain ⟨result, ends, holds⟩ := rest value signals known
  rw [ends]
  apply Gives.pure
  rw [List.append_nil]
  exact holds

theorem Gives.imp {holds weaker : α → List ε → Prop} {run : Run ε α} (gives : run.Gives holds)
    (implies : ∀ value signals, holds value signals → weaker value signals) :
    run.Gives weaker := by
  obtain ⟨value, done, known⟩ := gives
  exact ⟨value, done, implies value _ known⟩

theorem Gives.succeeds {holds : α → List ε → Prop} {run : Run ε α} (gives : run.Gives holds) :
    run.Succeeds fun value => holds value run.signals :=
  gives

theorem Gives.ensures {holds : α → List ε → Prop} {run : Run ε α} (gives : run.Gives holds) :
    run.Ensures fun value => holds value run.signals := by
  obtain ⟨value, done, known⟩ := gives
  intro other doneOther
  cases done.symm.trans doneOther
  exact known

/-! ## What holds of the value and of the signals -/

/-- Every value that the operation comes to has the property, together with what was signalled on
the way to it. -/
def Tells (run : Run ε α) (holds : α → List ε → Prop) : Prop :=
  ∀ value, run.outcome = .ok value → holds value run.signals

theorem Tells.pure {holds : α → List ε → Prop} {value : α} (known : holds value []) :
    Tells (pure value) holds := by
  rintro _ ⟨⟩
  exact known

theorem Tells.signal (event : ε) : (Run.signal event).Tells fun _ signals => signals = [event] := by
  rintro _ ⟨⟩
  rfl

/-- An operation that comes to its end tells its own value and signals. -/
theorem Tells.traced (traced : Traced ε α) : (liftM traced : Run ε α).Tells fun value signals =>
    value = traced.value ∧ signals = traced.signals := by
  rintro _ ⟨⟩
  exact ⟨rfl, rfl⟩

/-- An operation without signals. -/
theorem Tells.except (outcome : Except Fault α) :
    (liftM outcome : Run ε α).Tells fun value signals => outcome = .ok value ∧ signals = [] :=
  fun _ done => ⟨done, rfl⟩

theorem Tells.bind {between : α → List ε → Prop} {holds : β → List ε → Prop} {first : Run ε α}
    {next : α → Run ε β} (tells : first.Tells between)
    (rest : ∀ value signals, between value signals →
      (next value).Tells fun result more => holds result (signals ++ more)) :
    (first >>= next).Tells holds := by
  intro result done
  obtain ⟨value, doneFirst, doneNext⟩ := outcome_bind_eq_ok.1 done
  rw [bind_of_ok doneFirst]
  exact rest value _ (tells value doneFirst) result doneNext

/-- What is left to do only makes something of the value. -/
theorem Tells.conclude {between : α → List ε → Prop} {holds : β → List ε → Prop} {first : Run ε α}
    {next : α → Run ε β} (tells : first.Tells between)
    (rest : ∀ value signals, between value signals →
      ∃ result, next value = Pure.pure result ∧ holds result signals) :
    (first >>= next).Tells holds := by
  refine tells.bind fun value signals known => ?_
  obtain ⟨result, ends, holds⟩ := rest value signals known
  rw [ends]
  apply Tells.pure
  rw [List.append_nil]
  exact holds

theorem Tells.map {holds : β → List ε → Prop} {run : Run ε α} {change : α → β}
    (tells : run.Tells fun value => holds (change value)) : (change <$> run).Tells holds := by
  intro result done
  rw [outcome_map] at done
  obtain ⟨value, ran, rfl⟩ := except_map_eq_ok.1 done
  rw [signals_map]
  exact tells value ran

theorem Tells.ensures {holds : α → List ε → Prop} {run : Run ε α} (tells : run.Tells holds) :
    run.Ensures fun value => holds value run.signals :=
  tells

theorem Tells.imp {holds weaker : α → List ε → Prop} {run : Run ε α} (tells : run.Tells holds)
    (implies : ∀ value signals, holds value signals → weaker value signals) :
    run.Tells weaker :=
  fun value done => implies value _ (tells value done)

/-- What an operation ensures holds of what it tells as well. -/
theorem Tells.and {holds : α → List ε → Prop} {also : α → Prop} {run : Run ε α}
    (tells : run.Tells holds) (ensured : run.Ensures also) :
    run.Tells fun value signals => holds value signals ∧ also value :=
  fun value done => ⟨tells value done, ensured value done⟩

/-! ## What may be signalled -/

variable {kind other : ε → Prop}

/-- Everything that the operation signals, up to a fault if there is one, is of a kind. -/
def SignalsOnly (kind : ε → Prop) (run : Run ε α) : Prop := ∀ signal ∈ run.signals, kind signal

theorem SignalsOnly.pure (value : α) : SignalsOnly kind (pure value : Run ε α) :=
  fun _ signalled => absurd signalled List.not_mem_nil

theorem SignalsOnly.signal {event : ε} (known : kind event) : SignalsOnly kind (Run.signal event) :=
  Traced.SignalsOnly.signal known

theorem SignalsOnly.traced {traced : Traced ε α} (only : traced.SignalsOnly kind) :
    SignalsOnly kind (liftM traced : Run ε α) :=
  only

theorem SignalsOnly.except (outcome : Except Fault α) :
    SignalsOnly kind (liftM outcome : Run ε α) :=
  fun _ signalled => absurd signalled List.not_mem_nil

theorem SignalsOnly.bind {between : α → Prop} {first : Run ε α} {next : α → Run ε β}
    (before : first.SignalsOnly kind) (ensured : first.Ensures between)
    (rest : ∀ value, between value → (next value).SignalsOnly kind) :
    (first >>= next).SignalsOnly kind := by
  cases done : first.outcome with
  | error fault =>
      rw [bind_of_error done]
      exact before
  | ok value =>
      rw [bind_of_ok done]
      intro signal signalled
      rcases List.mem_append.1 signalled with signalled | signalled
      · exact before signal signalled
      · exact rest value (ensured value done) signal signalled

theorem SignalsOnly.imp {run : Run ε α} (only : run.SignalsOnly kind)
    (implies : ∀ signal, kind signal → other signal) : run.SignalsOnly other :=
  fun signal signalled => implies signal (only signal signalled)

/-! ## What fails only at a certain signal -/

/-- The operation comes to its end without a fatal signal, or fails for the reason right after its
first fatal signal. -/
inductive FailsOnlyAt (reason : Fault) (fatal : ε → Prop) : Run ε α → Prop where
  | ends {value : α} {signals : List ε} (harmless : ∀ signal ∈ signals, ¬fatal signal) :
      FailsOnlyAt reason fatal ⟨.ok value, signals⟩
  | fails {signals : List ε} {last : ε} (harmless : ∀ signal ∈ signals, ¬fatal signal)
      (deadly : fatal last) : FailsOnlyAt reason fatal ⟨.error reason, signals ++ [last]⟩

namespace FailsOnlyAt

variable {reason : Fault} {fatal : ε → Prop}

theorem traced {traced : Traced ε α} (harmless : traced.IsHarmless fatal) :
    FailsOnlyAt reason fatal (liftM traced : Run ε α) :=
  .ends harmless

theorem pure (value : α) : FailsOnlyAt reason fatal (pure value : Run ε α) :=
  .ends fun _ signalled => absurd signalled List.not_mem_nil

/-- An operation without signals that comes to its end. -/
theorem except {outcome : Except Fault α} {value : α} (done : outcome = .ok value) :
    FailsOnlyAt reason fatal (liftM outcome : Run ε α) :=
  done ▸ .pure value

theorem signal {event : ε} (harmless : ¬fatal event) :
    FailsOnlyAt reason fatal (Run.signal event) :=
  .traced (Traced.IsHarmless.signal harmless)

theorem bind {between : α → Prop} {first : Run ε α} {next : α → Run ε β}
    (fails : FailsOnlyAt reason fatal first) (ensured : first.Ensures between)
    (rest : ∀ value, between value → FailsOnlyAt reason fatal (next value)) :
    FailsOnlyAt reason fatal (first >>= next) := by
  cases fails with
  | fails harmless deadly => exact .fails harmless deadly
  | @ends value signals harmless =>
      have rest := rest value (ensured value rfl)
      rw [bind_of_ok rfl]
      generalize next value = second at rest
      cases rest with
      | ends more =>
          exact .ends fun signal signalled =>
            (List.mem_append.1 signalled).elim (harmless signal) (more signal)
      | fails more deadly =>
          rw [← List.append_assoc]
          exact .fails (fun signal signalled =>
            (List.mem_append.1 signalled).elim (harmless signal) (more signal)) deadly

theorem ends_iff {run : Run ε α} (fails : FailsOnlyAt reason fatal run) :
    (∃ value, run.outcome = .ok value) ↔ ∀ signal ∈ run.signals, ¬fatal signal := by
  cases fails with
  | ends harmless => exact iff_of_true ⟨_, rfl⟩ harmless
  | fails harmless deadly =>
      refine iff_of_false (fun ⟨_, done⟩ => nomatch done) fun harmless => ?_
      exact harmless _ (List.mem_append_right _ (List.mem_singleton_self _)) deadly

theorem reason_eq {run : Run ε α} (fails : FailsOnlyAt reason fatal run) (fault : Fault)
    (failed : run.outcome = .error fault) :
    fault = reason ∧ ∃ earlier last, run.signals = earlier ++ [last] ∧ fatal last := by
  cases fails with
  | ends harmless => contradiction
  | fails harmless deadly =>
      cases failed
      exact ⟨rfl, _, _, rfl, deadly⟩

end FailsOnlyAt

/-! ## What signals nothing -/

/-- The operation signals nothing. -/
def IsSilent (run : Run ε α) : Prop := run.signals = []

theorem IsSilent.pure (value : α) : IsSilent (ε := ε) (pure value) := rfl

theorem IsSilent.except (outcome : Except Fault α) : IsSilent (ε := ε) (liftM outcome) := rfl

theorem IsSilent.bind {first : Run ε α} {next : α → Run ε β} (silent : first.IsSilent)
    (rest : ∀ value, (next value).IsSilent) : (first >>= next).IsSilent := by
  obtain ⟨outcome, signals⟩ := first
  cases silent
  cases outcome with
  | error fault => rfl
  | ok value =>
      rw [bind_of_ok rfl]
      exact rest value

/-! ## Operations that do the same -/

/-- Two operations signal the same and end alike: with one fault, or with related values. -/
inductive Matches (related : α → β → Prop) : Run ε α → Run ε β → Prop where
  | value {left : α} {right : β} (signals : List ε) (holds : related left right) :
      Matches related ⟨.ok left, signals⟩ ⟨.ok right, signals⟩
  | fault (reason : Fault) (signals : List ε) :
      Matches related ⟨.error reason, signals⟩ ⟨.error reason, signals⟩

theorem Matches.pure {related : α → β → Prop} {left : α} {right : β} (holds : related left right) :
    Matches (ε := ε) related (pure left) (pure right) :=
  .value [] holds

theorem Matches.bind {related : α → β → Prop} {relatedNext : γ → δ → Prop}
    {first : Run ε α} {second : Run ε β} {next : α → Run ε γ} {nextOther : β → Run ε δ}
    (matched : Matches related first second)
    (rest : ∀ left right, related left right → Matches relatedNext (next left) (nextOther right)) :
    Matches relatedNext (first >>= next) (second >>= nextOther) := by
  cases matched with
  | fault reason signals => exact .fault reason signals
  | @value left right signals holds =>
      rw [bind_of_ok rfl, bind_of_ok rfl]
      generalize ended : next left = ran
      generalize endedOther : nextOther right = ranOther
      have alike := rest left right holds
      rw [ended, endedOther] at alike
      cases alike with
      | value signals' holds' => exact .value _ holds'
      | fault reason signals' => exact .fault reason _

theorem Matches.ofTraced {related : α → β → Prop} {first : Traced ε α} {second : Traced ε β}
    (matched : Traced.Matches related first second) :
    Matches related (Run.ofTraced first) (Run.ofTraced second) := by
  obtain ⟨left, signals⟩ := first
  obtain ⟨right, signalsOther⟩ := second
  obtain ⟨rfl, holds⟩ := matched
  exact .value signals holds

theorem Matches.refl (run : Run ε α) : Matches Eq run run := by
  obtain ⟨outcome, signals⟩ := run
  cases outcome with
  | error reason => exact .fault reason signals
  | ok value => exact .value signals rfl

theorem Matches.imp {related weaker : α → β → Prop} {first : Run ε α} {second : Run ε β}
    (matched : Matches related first second)
    (implies : ∀ left right, related left right → weaker left right) :
    Matches weaker first second := by
  cases matched with
  | value signals holds => exact .value signals (implies _ _ holds)
  | fault reason signals => exact .fault reason signals

/-- What the operations ensure holds of the values that they come to together. -/
theorem Matches.and {related : α → β → Prop} {holds : α → Prop} {also : β → Prop} {first : Run ε α}
    {second : Run ε β} (matched : Matches related first second) (ensured : first.Ensures holds)
    (ensuredOther : second.Ensures also) :
    Matches (fun left right => related left right ∧ holds left ∧ also right) first second := by
  cases matched with
  | value signals known => exact .value signals ⟨known, ensured _ rfl, ensuredOther _ rfl⟩
  | fault reason signals => exact .fault reason signals

theorem Matches.eq {first second : Run ε α} (matched : Matches Eq first second) :
    first = second := by
  cases matched with
  | value signals same => rw [same]
  | fault reason signals => rfl

end Run

end SocPeripherals
