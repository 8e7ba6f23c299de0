import StackTemplate.Error

/-! Where the bytes of a scan buffer came from. Once a file has been included,
the buffer starts with text that has no place in the input; an error there is
reported at the directive that brought the text in. -/
namespace StackTemplate

/-- The origin of a buffer whose first bytes came from files and whose
remaining bytes are the end of the input. -/
structure Origin where
  /-- How many bytes at the front came from files. -/
  included : Nat
  /-- The input offset that stands for those bytes. -/
  site : Nat
  /-- The input offset of the first byte after them. -/
  resume : Nat
  deriving DecidableEq, Repr

namespace Origin

/-- A buffer that is the input itself, from an offset on. -/
def start (base : Nat) : Origin :=
  { included := 0, site := base, resume := base }

/-- The input offset that a buffer position is reported at. -/
def offset (origin : Origin) (position : Nat) : Nat :=
  if position < origin.included then origin.site
  else origin.resume + (position - origin.included)

/-- The origin after the bytes up to `finish` gave way to the content of a file.
The directive itself began at `start`. -/
def splice (origin : Origin) (start finish contentLength : Nat) : Origin :=
  if finish ≤ origin.included then
    { origin with included := contentLength + (origin.included - finish) }
  else
    { included := contentLength, site := origin.offset start, resume := origin.offset finish }

/-- An error placed in the buffer, placed in the input instead. -/
def relocate (origin : Origin) : Error → Error
  | .unterminated delimiter position => .unterminated delimiter (origin.offset position)
  | error => error

@[simp] theorem offset_start (base position : Nat) : (start base).offset position = base + position := by
  simp [start, offset]

/-- In the input itself an error already stands where it is told. -/
theorem relocate_start (error : Error) : (start 0).relocate error = error := by
  cases error <;> simp [relocate]

/-- After an inclusion the content is reported where its directive began, and
what follows it where it was reported before. -/
theorem offset_splice (origin : Origin) {start finish : Nat} (forward : start < finish)
    (contentLength position : Nat) :
    (origin.splice start finish contentLength).offset position =
      if position < contentLength then origin.offset start
      else origin.offset (finish + (position - contentLength)) := by
  by_cases inside : finish ≤ origin.included
  · simp only [splice, inside, ↓reduceIte, offset]
    split <;> split <;> split <;> omega
  · have reached : ¬finish < origin.included := by omega
    by_cases content : position < contentLength
    · simp [splice, inside, offset, content]
    · have beyond : ¬finish + (position - contentLength) < origin.included := by omega
      simp only [splice, inside, offset, content, reached, beyond, ↓reduceIte]
      omega

end Origin

end StackTemplate
