import StackTemplate.Error
import StackTemplate.Event

/-! A computation with everything it did on the way. The record outlives a
failure: what was read and logged before an error stays known. -/
namespace StackTemplate

/-- What reading each path answers. -/
abbrev Files := Text → Except Fault Text

/-- One attempt to include a file: the path the template named and the path
that was read. -/
structure Inclusion where
  named : Text
  path : Text
  deriving DecidableEq, Repr

/-- What a computation did, and how it ended. -/
structure Run (α : Type) where
  inclusions : List Inclusion := []
  events : List Event := []
  result : Except Error α

namespace Run

/-- Ends at once with a value. -/
def done (value : α) : Run α :=
  { result := .ok value }

/-- Ends at once with an error. -/
def fail (error : Error) : Run α :=
  { result := .error error }

/-- The same computation with something done before it. -/
def after (run : Run α) (inclusions : List Inclusion) (events : List Event) : Run α :=
  { run with inclusions := inclusions ++ run.inclusions, events := events ++ run.events }

/-- Changes the value, if there is one. -/
def map (f : α → β) (run : Run α) : Run β :=
  { inclusions := run.inclusions, events := run.events, result := run.result.map f }

/-- Goes on from the value, if there is one. -/
def bind (run : Run α) (next : α → Run β) : Run β :=
  match run.result with
  | .ok value => (next value).after run.inclusions run.events
  | .error error => { inclusions := run.inclusions, events := run.events, result := .error error }

@[simp] theorem result_done (value : α) : (done value).result = .ok value := rfl

@[simp] theorem inclusions_done (value : α) : (done value).inclusions = [] := rfl

@[simp] theorem result_fail (error : Error) : (fail error : Run α).result = .error error := rfl

@[simp] theorem inclusions_fail (error : Error) : (fail error : Run α).inclusions = [] := rfl

@[simp] theorem result_map (f : α → β) (run : Run α) : (run.map f).result = run.result.map f := rfl

@[simp] theorem inclusions_map (f : α → β) (run : Run α) : (run.map f).inclusions = run.inclusions :=
  rfl

@[simp] theorem result_after (run : Run α) (inclusions : List Inclusion) (events : List Event) :
    (run.after inclusions events).result = run.result := rfl

@[simp] theorem inclusions_after (run : Run α) (inclusions : List Inclusion) (events : List Event) :
    (run.after inclusions events).inclusions = inclusions ++ run.inclusions := rfl

theorem result_bind (run : Run α) (next : α → Run β) :
    (run.bind next).result = run.result.bind fun value => (next value).result := by
  unfold bind
  split
  · next value ended => rw [ended]; rfl
  · next error failed => rw [failed]; rfl

@[simp] theorem map_after (f : α → β) (run : Run α) (inclusions : List Inclusion)
    (events : List Event) :
    (run.after inclusions events).map f = (run.map f).after inclusions events := rfl

@[simp] theorem after_after (run : Run α) (first second : List Inclusion) (early late : List Event) :
    (run.after second late).after first early = run.after (first ++ second) (early ++ late) := by
  simp [after]

@[simp] theorem after_nil (run : Run α) : run.after [] [] = run := rfl

@[simp] theorem map_map (f : α → β) (g : β → γ) (run : Run α) :
    (run.map f).map g = run.map (g ∘ f) := by
  cases run with
  | mk inclusions events result => cases result <;> rfl

@[simp] theorem map_self (run : Run α) : run.map (fun value => value) = run := by
  cases run with
  | mk inclusions events result => cases result <;> rfl

theorem map_eq_ok {run : Run α} {f : α → β} {value : β} {read : List Inclusion} {told : List Event}
    (ran : run.map f = ⟨read, told, .ok value⟩) :
    ∃ inner, run = ⟨read, told, .ok inner⟩ ∧ f inner = value := by
  obtain ⟨own, early, result⟩ := run
  cases result with
  | error error => cases ran
  | ok inner =>
    cases ran
    exact ⟨inner, rfl, rfl⟩

theorem after_eq_ok {run : Run α} {value : α} {first read : List Inclusion} {early told : List Event}
    (ran : run.after first early = ⟨read, told, .ok value⟩) :
    ∃ second late, run = ⟨second, late, .ok value⟩ ∧ read = first ++ second ∧ told = early ++ late := by
  obtain ⟨own, later, result⟩ := run
  cases ran
  exact ⟨own, later, rfl, rfl, rfl⟩

end Run

end StackTemplate
