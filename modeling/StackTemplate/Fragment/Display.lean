import StackTemplate.Fragment

/-! The canonical source text of a fragment: every expression is delimited, and
an `@` in literal text is doubled. -/
namespace StackTemplate.Fragment

/-- Literal text as it is written in a template. -/
def escape (text : Text) : Text :=
  text.flatMap fun c => if c = '@' then ['@', '@'] else [c]

/-- An expression whose end is marked, so that any text may follow. -/
def delimited (body : Text) : Text :=
  '@' :: '{' :: body ++ ['}']

/-- A name with its keys, in brackets. -/
def bracketed (name : Text) (keys : List Text) : Text :=
  name ++ '[' :: [',', ' '].intercalate keys ++ [']']

mutual

/-- The source text of a fragment. A lookup that follows the single-key
convention is written with that one key. -/
def display : Fragment → Text
  | literal text => escape text
  | reference name => delimited name
  | attributeOf name path => delimited (name ++ '.' :: path)
  | lookup map keys =>
    match conventionStem? map keys with
    | some stem => delimited (bracketed stem ((displayAll keys).drop 1))
    | none => delimited (bracketed map (displayAll keys))
  | join parts => (displayAll parts).flatten

/-- The source texts of several fragments. -/
def displayAll : List Fragment → List Text
  | [] => []
  | part :: parts => display part :: displayAll parts

end

theorem displayAll_eq_map (parts : List Fragment) : displayAll parts = parts.map display := by
  induction parts with
  | nil => rfl
  | cons part parts ih => simp [displayAll, ih]

end StackTemplate.Fragment
