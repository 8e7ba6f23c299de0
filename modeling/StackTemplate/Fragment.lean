import StackTemplate.Text

/-! A fragment is what template text denotes: literal text, or an expression to
be resolved when the stack is deployed. `Fragment.collapse` is the normal form
of a sequence of fragments, and `Assembly` collects a sequence while it is
still being read. -/
namespace StackTemplate

/-- Literal text or an expression. Every constructor but `literal` is an expression. -/
inductive Fragment where
  /-- Text that stands for itself. -/
  | literal (text : Text)
  /-- The value of a parameter or resource. -/
  | reference (name : Text)
  /-- An attribute of a resource. The path is kept as written. -/
  | attributeOf (name path : Text)
  /-- An entry of a mapping, found by its keys. -/
  | lookup (map : Text) (keys : List Fragment)
  /-- The concatenation of its parts. -/
  | join (parts : List Fragment)
  deriving Repr, Inhabited

namespace Fragment

/-- Whether the fragment is text that stands for itself. -/
def isLiteral : Fragment → Bool
  | literal _ => true
  | _ => false

/-- What a mapping's name ends with when it belongs to the parameter named before it. -/
def mapSuffix : Text := ['M', 'a', 'p']

/-- With a single key, `Env` is looked up in the mapping `EnvMap` under its own
value and the key. -/
def byConvention (name : Text) (key : Fragment) : Fragment :=
  lookup (name ++ mapSuffix) [reference name, key]

/-- A lookup in the named mapping; there is none without a key. -/
def explicit (map : Text) (keys : List Fragment) : Option Fragment :=
  if keys.isEmpty then none else some (lookup map keys)

/-- The lookup that a name followed by bracketed keys denotes. -/
def ofKeys (name : Text) : List Fragment → Fragment
  | [key] => byConvention name key
  | keys => lookup name keys

/-- The parameter a lookup belongs to when it follows the single-key convention. -/
def conventionStem? (map : Text) : List Fragment → Option Text
  | [reference name, _] => if map = name ++ mapSuffix then some name else none
  | _ => none

/-- Puts a fragment in front of merged ones: empty text vanishes, and text
grows together with the text that follows it. -/
def prepend : Fragment → List Fragment → List Fragment
  | literal [], parts => parts
  | literal text, literal next :: parts => literal (text ++ next) :: parts
  | part, parts => part :: parts

/-- The same sequence without empty or adjacent literals. -/
def merge (parts : List Fragment) : List Fragment :=
  parts.foldr prepend []

/-- One fragment for a merged sequence. A join is only made for two parts or more. -/
def ofMerged : List Fragment → Fragment
  | [] => literal []
  | [part] => part
  | parts => join parts

/-- The one fragment that a sequence of fragments denotes. -/
def collapse (parts : List Fragment) : Fragment :=
  ofMerged (merge parts)

end Fragment

/-- A sequence under construction. Text is gathered in an open run that only an
expression closes, so a literal is never split. Both fields hold the latest first. -/
structure Assembly where
  closed : List Fragment := []
  run : Text := []

namespace Assembly

/-- Nothing collected yet. -/
def empty : Assembly := {}

/-- The collected fragments, the open run among them, latest first. -/
def fragments (assembly : Assembly) : List Fragment :=
  if assembly.run.isEmpty then assembly.closed
  else .literal assembly.run.reverse :: assembly.closed

/-- Extends the open run. -/
def addText (assembly : Assembly) (text : Text) : Assembly :=
  { assembly with run := text.reverse ++ assembly.run }

/-- Closes the open run and adds an expression after it. -/
def addExpression (assembly : Assembly) (expression : Fragment) : Assembly :=
  { closed := expression :: assembly.fragments, run := [] }

/-- Adds a fragment of either kind. -/
def add (assembly : Assembly) : Fragment → Assembly
  | .literal text => assembly.addText text
  | expression => assembly.addExpression expression

/-- The fragment that everything collected denotes. -/
def finish (assembly : Assembly) : Fragment :=
  .collapse assembly.fragments.reverse

/-- The fragment that a finished sequence denotes. -/
def ofFragments (parts : List Fragment) : Fragment :=
  (parts.foldl add empty).finish

end Assembly

end StackTemplate
