import PluginDiscovery.Event

/-!
# Traced computations

A computation that may fail and that emits events on the way. What follows a failure is not run, so
the events of a failed computation are those up to its first failure.
-/

namespace PluginDiscovery

/-- The events of a computation, oldest first, and its outcome. -/
structure Traced (ε α : Type) where
  /-- The events. -/
  events : List Event
  /-- The outcome. -/
  outcome : Except ε α

namespace Traced

variable {ε ε' α β : Type}

/-- Succeeds at once. -/
def ok (value : α) : Traced ε α := ⟨[], .ok value⟩

/-- Fails at once. -/
def fail (error : ε) : Traced ε α := ⟨[], .error error⟩

/-- Emits one event. -/
def emit (event : Event) : Traced ε Unit := ⟨[event], .ok ()⟩

/-- Makes a routine note. -/
def note (text : String) : Traced ε Unit := emit (.noted { text })

/-- Makes a note about something that is skipped. -/
def warn (text : String) : Traced ε Unit := emit (.noted { skipping := true, text })

/-- Runs a computation and, if it succeeds, another one on its result. -/
def andThen (first : Traced ε α) (next : α → Traced ε β) : Traced ε β :=
  match first.outcome with
  | .error error => ⟨first.events, .error error⟩
  | .ok value => ⟨first.events ++ (next value).events, (next value).outcome⟩

instance : Monad (Traced ε) where
  pure := ok
  bind := andThen

/-- The same computation with another kind of error. -/
def mapError (f : ε → ε') (first : Traced ε α) : Traced ε' α :=
  ⟨first.events, first.outcome.mapError f⟩

@[simp] theorem pure_eq (value : α) : (pure value : Traced ε α) = ok value := rfl

@[simp] theorem bind_eq (first : Traced ε α) (next : α → Traced ε β) :
    first >>= next = first.andThen next := rfl

@[simp] theorem ok_andThen (value : α) (next : α → Traced ε β) :
    (ok value).andThen next = next value := rfl

@[simp] theorem fail_andThen (error : ε) (next : α → Traced ε β) :
    (fail error : Traced ε α).andThen next = fail error := rfl

@[simp] theorem events_ok (value : α) : (ok value : Traced ε α).events = [] := rfl

@[simp] theorem events_fail (error : ε) : (fail error : Traced ε α).events = [] := rfl

@[simp] theorem outcome_ok (value : α) : (ok value : Traced ε α).outcome = .ok value := rfl

@[simp] theorem outcome_fail (error : ε) : (fail error : Traced ε α).outcome = .error error := rfl

@[simp] theorem outcome_note (text : String) : (note text : Traced ε Unit).outcome = .ok () := rfl

@[simp] theorem outcome_warn (text : String) : (warn text : Traced ε Unit).outcome = .ok () := rfl

@[simp] theorem outcome_mapError (f : ε → ε') (first : Traced ε α) :
    (first.mapError f).outcome = first.outcome.mapError f := rfl

theorem outcome_andThen_of_ok {first : Traced ε α} {value : α} (h : first.outcome = .ok value)
    (next : α → Traced ε β) : (first.andThen next).outcome = (next value).outcome := by
  simp [andThen, h]

theorem outcome_andThen_of_error {first : Traced ε α} {error : ε} (h : first.outcome = .error error)
    (next : α → Traced ε β) : (first.andThen next).outcome = .error error := by
  simp [andThen, h]

theorem outcome_andThen_ok (first : Traced ε α) (f : α → β) :
    (first.andThen fun value => ok (f value)).outcome = first.outcome.map f := by
  obtain ⟨events, outcome⟩ := first
  cases outcome <;> rfl

theorem events_andThen_ok (first : Traced ε α) (f : α → β) :
    (first.andThen fun value => ok (f value)).events = first.events := by
  obtain ⟨events, outcome⟩ := first
  cases outcome <;> simp [andThen, ok]

/-- A sequence succeeds exactly when both of its parts do. -/
theorem outcome_andThen_eq_ok_iff {first : Traced ε α} {next : α → Traced ε β} {result : β} :
    (first.andThen next).outcome = .ok result ↔
      ∃ value, first.outcome = .ok value ∧ (next value).outcome = .ok result := by
  obtain ⟨events, outcome⟩ := first
  cases outcome <;> simp [andThen]

/-- After a success the events of the second part follow those of the first. -/
theorem events_andThen_of_ok {first : Traced ε α} {value : α} (h : first.outcome = .ok value)
    (next : α → Traced ε β) :
    (first.andThen next).events = first.events ++ (next value).events := by
  simp [andThen, h]

/-- After a failure there are no further events. -/
theorem events_andThen_of_error {first : Traced ε α} {error : ε} (h : first.outcome = .error error)
    (next : α → Traced ε β) : (first.andThen next).events = first.events := by
  simp [andThen, h]

theorem andThen_ok (first : Traced ε α) : first.andThen ok = first := by
  obtain ⟨events, outcome⟩ := first
  cases outcome <;> simp [andThen, ok]

end Traced

end PluginDiscovery
