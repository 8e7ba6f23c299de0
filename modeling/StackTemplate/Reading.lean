import StackTemplate.Text

/-! Reading from the front of a text. A success comes with the text that is
left; a failure with the text that had not been looked at when reading stopped. -/
namespace StackTemplate

/-- What was read and the text after it, or the text left where reading stopped. -/
abbrev Reading (α : Type) := Except Text (α × Text)

/-- Goes on reading after what was read. -/
def Reading.andThen (reading : Reading α) (next : α → Text → Reading β) : Reading β :=
  match reading with
  | .ok (value, rest) => next value rest
  | .error rest => .error rest

/-- Changes what was read. -/
def Reading.as (reading : Reading α) (f : α → β) : Reading β :=
  reading.andThen fun value rest => .ok (f value, rest)

theorem Reading.andThen_eq_ok {reading : Reading α} {next : α → Text → Reading β} {result : β} {left : Text} :
    reading.andThen next = .ok (result, left) ↔
      ∃ value rest, reading = .ok (value, rest) ∧ next value rest = .ok (result, left) := by
  constructor
  · intro ran
    match reading with
    | .ok (value, rest) => exact ⟨value, rest, rfl, ran⟩
    | .error rest => cases ran
  · rintro ⟨value, rest, rfl, ran⟩
    exact ran

theorem Reading.as_eq_ok {reading : Reading α} {f : α → β} {result : β} {left : Text} :
    reading.as f = .ok (result, left) ↔ ∃ value, reading = .ok (value, left) ∧ f value = result := by
  rw [as, andThen_eq_ok]
  constructor
  · rintro ⟨value, rest, ran, ⟨⟩⟩
    exact ⟨value, ran, rfl⟩
  · rintro ⟨value, ran, rfl⟩
    exact ⟨value, left, ran, rfl⟩

end StackTemplate
