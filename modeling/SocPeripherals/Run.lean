import SocPeripherals.Fault

/-!
# Runs

An operation of a device answers with a value and signals things on the way. `Traced` is an
operation that always comes to its end; `Run` is one that a fault may cut short, after which
the signals given up to the fault still stand.
-/

namespace SocPeripherals

/-- A value with what was signalled on the way to it, oldest first. -/
structure Traced (ε : Type) (α : Type) where
  value : α
  signals : List ε := []

namespace Traced

variable {ε α β : Type}

/-- Goes on with the value, after what was signalled so far. -/
def andThen (first : Traced ε α) (next : α → Traced ε β) : Traced ε β :=
  let second := next first.value
  ⟨second.value, first.signals ++ second.signals⟩

instance : Monad (Traced ε) where
  pure value := ⟨value, []⟩
  bind := andThen

/-- Gives one signal. -/
def signal (event : ε) : Traced ε Unit := ⟨(), [event]⟩

/-- Gives signals in order. -/
def signalAll (events : List ε) : Traced ε Unit := ⟨(), events⟩

@[simp]
theorem value_pure (value : α) : (pure value : Traced ε α).value = value := rfl

@[simp]
theorem signals_pure (value : α) : (pure value : Traced ε α).signals = [] := rfl

@[simp]
theorem value_bind (first : Traced ε α) (next : α → Traced ε β) :
    (first >>= next).value = (next first.value).value := rfl

@[simp]
theorem signals_bind (first : Traced ε α) (next : α → Traced ε β) :
    (first >>= next).signals = first.signals ++ (next first.value).signals := rfl

@[simp]
theorem signals_signal (event : ε) : (signal event).signals = [event] := rfl

@[simp]
theorem signals_signalAll (events : List ε) : (signalAll events).signals = events := rfl

instance : LawfulMonad (Traced ε) :=
  LawfulMonad.mk' (Traced ε)
    (fun traced => by simp [Functor.map, andThen])
    (fun value next => by simp [bind, andThen, pure])
    (fun first second third => by simp [bind, andThen])

end Traced

/-- The outcome of an operation that a fault may cut short, with what it signalled before it
ended, oldest first. -/
structure Run (ε : Type) (α : Type) where
  outcome : Except Fault α
  signals : List ε := []

namespace Run

variable {ε α β : Type}

/-- Goes on with the value, unless there was a fault. -/
def andThen (first : Run ε α) (next : α → Run ε β) : Run ε β :=
  match first.outcome with
  | .error fault => ⟨.error fault, first.signals⟩
  | .ok value =>
      let second := next value
      ⟨second.outcome, first.signals ++ second.signals⟩

instance : Monad (Run ε) where
  pure value := ⟨.ok value, []⟩
  bind := andThen

/-- Gives one signal. -/
def signal (event : ε) : Run ε Unit := ⟨.ok (), [event]⟩

/-- Ends with a fault. -/
def fault (reason : Fault) : Run ε α := ⟨.error reason, []⟩

/-- An operation without signals. -/
def ofExcept (outcome : Except Fault α) : Run ε α := ⟨outcome, []⟩

/-- An operation that comes to its end. -/
def ofTraced (traced : Traced ε α) : Run ε α := ⟨.ok traced.value, traced.signals⟩

instance : MonadLift (Except Fault) (Run ε) := ⟨ofExcept⟩

instance : MonadLift (Traced ε) (Run ε) := ⟨ofTraced⟩

instance : LawfulMonad (Run ε) :=
  LawfulMonad.mk' (Run ε)
    (fun run => by
      obtain ⟨outcome, signals⟩ := run
      cases outcome <;> simp [Functor.map, andThen])
    (fun value next => by simp [bind, andThen, pure])
    (fun first second third => by
      obtain ⟨outcome, signals⟩ := first
      cases outcome with
      | error fault => rfl
      | ok value =>
          cases inner : (second value).outcome <;> simp [bind, andThen, inner])

theorem outcome_bind_eq_ok {first : Run ε α} {next : α → Run ε β} {result : β} :
    (first >>= next).outcome = .ok result ↔
      ∃ value, first.outcome = .ok value ∧ (next value).outcome = .ok result := by
  cases done : first.outcome <;> simp [bind, andThen, done]

theorem bind_of_ok {first : Run ε α} {value : α} (done : first.outcome = .ok value)
    (next : α → Run ε β) :
    (first >>= next) = ⟨(next value).outcome, first.signals ++ (next value).signals⟩ := by
  simp [bind, andThen, done]

end Run

end SocPeripherals
