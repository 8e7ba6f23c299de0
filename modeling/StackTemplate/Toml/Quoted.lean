import StackTemplate.Reading
import StackTemplate.Toml.Scalar

/-! Strings in their four forms: with escapes or without, on one line or over
several. -/
namespace StackTemplate.Toml

/-- Blanks within a line. -/
def isSpace (c : Char) : Bool :=
  c == ' ' || c == '\t'

/-- Characters that may stand in a comment, and in a string but for its own marks. -/
def isPrintable (c : Char) : Bool :=
  c == '\t' || (0x20 ≤ c.toNat && c.toNat != 0x7F)

/-- What follows a line end. -/
def afterLineEnd? : Text → Option Text
  | '\n' :: rest => some rest
  | '\r' :: '\n' :: rest => some rest
  | _ => none

/-- A text without the line end at its front. -/
def dropLineEnd (text : Text) : Text :=
  (afterLineEnd? text).getD text

/-- Reads the character whose code so many hexadecimal digits give. -/
def readCode (count : Nat) (text : Text) : Reading Char :=
  let digits := text.take count
  let code := ofDigits 16 digits
  if digits.length = count ∧ digits.all isHexDigit ∧ code.isValidChar then
    .ok (Char.ofNat code, text.drop count)
  else .error text

/-- Reads what follows a backslash. -/
def readEscape (text : Text) : Reading Char :=
  match text with
  | [] => .error []
  | c :: rest =>
    if c = 'u' then readCode 4 rest
    else if c = 'U' then readCode 8 rest
    else if c = '"' ∨ c = '\\' then .ok (c, rest)
    else if c = 'b' then .ok (Char.ofNat 8, rest)
    else if c = 'f' then .ok (Char.ofNat 12, rest)
    else if c = 'n' then .ok ('\n', rest)
    else if c = 'r' then .ok ('\r', rest)
    else if c = 't' then .ok ('\t', rest)
    else .error rest

/-- Reads a string with escapes after its quote. Every step takes a character,
so `fuel` bounds the steps. -/
def readBasic : (fuel : Nat) → Text → Reading Text
  | 0, text => .error text
  | _ + 1, [] => .error []
  | fuel + 1, c :: rest =>
    if c = '"' then .ok ([], rest)
    else if c = '\\' then
      (readEscape rest).andThen fun escaped rest => (readBasic fuel rest).as (escaped :: ·)
    else if isPrintable c then (readBasic fuel rest).as (c :: ·)
    else .error (c :: rest)

/-- Reads a string without escapes after its quote. -/
def readLiteral (text : Text) : Reading Text :=
  let body := text.takeWhile fun c => isPrintable c && c != '\''
  match text.dropWhile fun c => isPrintable c && c != '\'' with
  | '\'' :: rest => .ok (body, rest)
  | rest => .error rest

/-- The lines and blanks that a backslash at the end of a line joins: what
follows them, if a line end is among the blanks. -/
def afterJoin? (text : Text) : Option Text :=
  (afterLineEnd? (text.dropWhile isSpace)).map fun rest => skipLines rest.length rest
where
  /-- Drops blanks and line ends, at most `fuel` times. -/
  skipLines : Nat → Text → Text
    | 0, text => text
    | fuel + 1, text =>
      match afterLineEnd? (text.dropWhile isSpace) with
      | some rest => skipLines fuel rest
      | none => text.dropWhile isSpace

/-- The quotes that end a string over several lines: of a longer run, up to two
belong to the string. -/
def closeRun (quote : Char) (text : Text) : Option (Text × Text) :=
  let run := (text.takeWhile (· == quote)).length
  if run < 3 then none
  else
    let kept := min (run - 3) 2
    some (List.replicate kept quote, text.drop (kept + 3))

/-- Reads a string over several lines after its quotes and first line end.
`escapes` tells whether backslashes have a meaning. -/
def readLines (quote : Char) (escapes : Bool) : (fuel : Nat) → Text → Reading Text
  | 0, text => .error text
  | _ + 1, [] => .error []
  | fuel + 1, c :: rest =>
    if c = quote then
      match closeRun quote (c :: rest) with
      | some (kept, rest) => .ok (kept, rest)
      | none => (readLines quote escapes fuel rest).as (c :: ·)
    else if c = '\\' ∧ escapes then
      match afterJoin? rest with
      | some rest => readLines quote escapes fuel rest
      | none =>
        (readEscape rest).andThen fun escaped rest =>
          (readLines quote escapes fuel rest).as (escaped :: ·)
    else match afterLineEnd? (c :: rest) with
      | some rest => (readLines quote escapes fuel rest).as ('\n' :: ·)
      | none =>
        if isPrintable c then (readLines quote escapes fuel rest).as (c :: ·)
        else .error (c :: rest)

/-- Reads a string on one line, from its quote on. -/
def readLine (text : Text) : Reading Text :=
  match text with
  | '"' :: rest => readBasic (rest.length + 1) rest
  | '\'' :: rest => readLiteral rest
  | _ => .error text

/-- Reads a string in any form, from its first quote on. -/
def readString (text : Text) : Reading Text :=
  match text with
  | '"' :: '"' :: '"' :: rest => readLines '"' true (rest.length + 1) (dropLineEnd rest)
  | '\'' :: '\'' :: '\'' :: rest => readLines '\'' false (rest.length + 1) (dropLineEnd rest)
  | _ => readLine text

end StackTemplate.Toml
