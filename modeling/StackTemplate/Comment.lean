import StackTemplate.Text

/-! Line comments in a document. A comment runs from two slashes outside every
string to the end of its line, which is kept so that lines keep their numbers. -/
namespace StackTemplate.Comment

/-- What the next character belongs to. -/
inductive Scope where
  | code
  | string
  /-- The character after a backslash in a string. -/
  | escape
  | comment
  deriving DecidableEq, Repr

/-- The text without its comments, starting in some scope. -/
def stripFrom : Scope → Text → Text
  | _, [] => []
  | .code, '/' :: '/' :: rest => stripFrom .comment rest
  | .code, '"' :: rest => '"' :: stripFrom .string rest
  | .code, c :: rest => c :: stripFrom .code rest
  | .string, '\\' :: rest => '\\' :: stripFrom .escape rest
  | .string, '"' :: rest => '"' :: stripFrom .code rest
  | .string, c :: rest => c :: stripFrom .string rest
  | .escape, c :: rest => c :: stripFrom .string rest
  | .comment, '\n' :: rest => '\n' :: stripFrom .code rest
  | .comment, _ :: rest => stripFrom .comment rest

theorem stripFrom_code {c : Char} {rest : Text} (unquoted : c ≠ '"')
    (single : c = '/' → rest.head? ≠ some '/') :
    stripFrom .code (c :: rest) = c :: stripFrom .code rest := by
  refine stripFrom.eq_4 c rest (fun more slash next => single slash ?_) unquoted
  rw [next, List.head?_cons]

theorem stripFrom_string {c : Char} (plain : c ≠ '\\') (unquoted : c ≠ '"') (rest : Text) :
    stripFrom .string (c :: rest) = c :: stripFrom .string rest :=
  stripFrom.eq_7 c rest plain unquoted

theorem stripFrom_comment {c : Char} (inLine : c ≠ '\n') (rest : Text) :
    stripFrom .comment (c :: rest) = stripFrom .comment rest :=
  stripFrom.eq_10 c rest inLine

/-- The text without its comments. -/
def strip (text : Text) : Text :=
  stripFrom .code text

/-- Whether a comment is the first thing in the text. -/
def leads (text : Text) : Bool :=
  match Text.trimStart text with
  | '/' :: '/' :: _ => true
  | _ => false

end StackTemplate.Comment
