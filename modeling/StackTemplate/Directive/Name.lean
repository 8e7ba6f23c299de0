import StackTemplate.Text

/-! Names and attribute paths, cut off the front of a text. A name starts with a
letter or `_`, goes on with letters, digits and `_`, and may hold `::` where a
name character follows. -/
namespace StackTemplate.Directive

/-- Characters a name may start with. -/
def isNameStart (c : Char) : Bool :=
  c.isAlpha || c == '_'

/-- A name starts with neither of the signs that decide what follows an `@`. -/
theorem isNameStart_unsigned {c : Char} (start : isNameStart c = true) : c ≠ '@' ∧ c ≠ '{' := by
  constructor
  all_goals
    rintro rfl
    cases start

/-- Characters a name may go on with. -/
def isNameChar (c : Char) : Bool :=
  c.isAlphanum || c == '_'

/-- Characters of an attribute path without delimiters. -/
def isPathChar (c : Char) : Bool :=
  isNameChar c || c == '.'

/-- The longest continuation of a name, and what follows it. -/
def splitNameTail : Text → Text × Text
  | ':' :: ':' :: c :: rest =>
    if isNameChar c then
      let (tail, rest) := splitNameTail rest
      (':' :: ':' :: c :: tail, rest)
    else ([], ':' :: ':' :: c :: rest)
  | c :: rest =>
    if isNameChar c then
      let (tail, rest) := splitNameTail rest
      (c :: tail, rest)
    else ([], c :: rest)
  | [] => ([], [])

/-- The longest name at the front of the text, empty if none starts there, and
what follows it. -/
def splitName : Text → Text × Text
  | c :: rest =>
    if isNameStart c then
      let (tail, rest) := splitNameTail rest
      (c :: tail, rest)
    else ([], c :: rest)
  | [] => ([], [])

/-- A text that is one name and nothing else. -/
def IsName (text : Text) : Prop :=
  text ≠ [] ∧ splitName text = (text, [])

instance (text : Text) : Decidable (IsName text) :=
  inferInstanceAs (Decidable (_ ∧ _))

/-- The longest attribute path at the front of the text and what follows it. A
dot that ends a sentence is not part of the path. -/
def splitPath (text : Text) : Text × Text :=
  let reach := text.takeWhile isPathChar
  let path := (reach.reverse.dropWhile (· == '.')).reverse
  (path, text.drop path.length)

theorem splitNameTail_append (text : Text) :
    (splitNameTail text).1 ++ (splitNameTail text).2 = text := by
  fun_induction splitNameTail text <;> simp_all

/-- Cutting a name off loses nothing. -/
theorem splitName_append (text : Text) : (splitName text).1 ++ (splitName text).2 = text := by
  cases text with
  | nil => rfl
  | cons c rest =>
    by_cases start : isNameStart c
    · simpa [splitName, start] using splitNameTail_append rest
    · simp [splitName, start]

private theorem reversed_dropWhile_isPrefix (stop : Char → Bool) (text : Text) :
    (text.reverse.dropWhile stop).reverse <+: text := by
  have suffix := List.dropWhile_suffix stop (l := text.reverse)
  simpa using List.reverse_prefix.mpr suffix

/-- Cutting a path off loses nothing. -/
theorem splitPath_append (text : Text) : (splitPath text).1 ++ (splitPath text).2 = text := by
  have start : (splitPath text).1 <+: text :=
    (reversed_dropWhile_isPrefix _ _).trans (List.takeWhile_prefix _)
  obtain ⟨rest, same⟩ := start
  change (splitPath text).1 ++ text.drop (splitPath text).1.length = text
  generalize (splitPath text).1 = path at same ⊢
  simp [← same]

end StackTemplate.Directive
