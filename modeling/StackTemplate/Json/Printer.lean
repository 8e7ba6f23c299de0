import StackTemplate.Binary64.Shortest
import StackTemplate.Json.Value

/-! JSON text of a value, on one line or indented by two blanks a level. -/
namespace StackTemplate.Json

/-- One hexadecimal digit. -/
def hexDigit (n : Nat) : Char :=
  if n < 10 then Char.ofNat (48 + n) else Char.ofNat (87 + n)

/-- One character inside a string. -/
def printChar (c : Char) : Text :=
  if c = '"' then ['\\', '"']
  else if c = '\\' then ['\\', '\\']
  else if c = '\n' then ['\\', 'n']
  else if c = '\r' then ['\\', 'r']
  else if c = '\t' then ['\\', 't']
  else if c.toNat = 8 then ['\\', 'b']
  else if c.toNat = 12 then ['\\', 'f']
  else if c.toNat < 32 then ['\\', 'u', '0', '0', hexDigit (c.toNat / 16), hexDigit (c.toNat % 16)]
  else [c]

/-- A string in quotes. -/
def printString (text : Text) : Text :=
  '"' :: text.flatMap printChar ++ ['"']

/-- A whole number. -/
def printInt (n : Int) : Text :=
  if n < 0 then '-' :: Text.ofNat n.natAbs else Text.ofNat n.natAbs

/-- The powers of ten of a first digit for which a real is written without an exponent. -/
def isPositional (power : Int) : Bool :=
  -5 ≤ power && power ≤ 15

/-- A positive real from the digits of its shortest decimal and the power of ten
of the first. A whole number keeps a zero after the point; an exponent has its sign. -/
def layOut (digits : Text) (power : Int) : Text :=
  if isPositional power then
    if power < 0 then '0' :: '.' :: List.replicate (-power - 1).toNat '0' ++ digits
    else
      let whole := power.toNat + 1
      if digits.length ≤ whole then
        digits ++ List.replicate (whole - digits.length) '0' ++ ['.', '0']
      else digits.take whole ++ '.' :: digits.drop whole
  else
    let mantissa := match digits with
      | first :: [] => [first]
      | first :: more => first :: '.' :: more
      | [] => []
    let sign := if power < 0 then '-' else '+'
    mantissa ++ 'e' :: sign :: Text.ofNat power.natAbs

/-- A number in double precision, by the fewest digits that read back. -/
def printReal (x : Binary64) : Text :=
  let magnitude :=
    if x.significand = 0 then ['0', '.', '0']
    else
      let decimal := x.shortest
      let digits := Text.ofNat decimal.digits
      layOut digits (decimal.exponent + digits.length - 1)
  if x.negative then '-' :: magnitude else magnitude

/-- A number. -/
def printNumber : Number → Text
  | .integer n => printInt n
  | .real x => printReal x

mutual

/-- The text of a value without any blanks. -/
def printCompact : Value → Text
  | .null => ['n', 'u', 'l', 'l']
  | .boolean true => ['t', 'r', 'u', 'e']
  | .boolean false => ['f', 'a', 'l', 's', 'e']
  | .number value => printNumber value
  | .string text => printString text
  | .array items => '[' :: [','].intercalate (printItems items) ++ [']']
  | .object entries => '{' :: [','].intercalate (printEntries entries) ++ ['}']

/-- The texts of an array's items. -/
def printItems : List Value → List Text
  | [] => []
  | item :: items => printCompact item :: printItems items

/-- The texts of an object's entries. -/
def printEntries : List (Text × Value) → List Text
  | [] => []
  | (key, value) :: entries => (printString key ++ ':' :: printCompact value) :: printEntries entries

end

/-- Items between brackets, each on a line of its own and one level deeper. -/
def printBlock (level : Nat) (opener closer : Char) (items : List Text) : Text :=
  if items.isEmpty then [opener, closer]
  else
    let margin := List.replicate (2 * level) ' '
    let line := '\n' :: ' ' :: ' ' :: margin
    opener :: line ++ (',' :: line).intercalate items ++ '\n' :: margin ++ [closer]

mutual

/-- The text of a value that starts on a line at some level of indentation. -/
def printIndented (level : Nat) : Value → Text
  | .array items => printBlock level '[' ']' (printIndentedItems (level + 1) items)
  | .object entries => printBlock level '{' '}' (printIndentedEntries (level + 1) entries)
  | .null => ['n', 'u', 'l', 'l']
  | .boolean true => ['t', 'r', 'u', 'e']
  | .boolean false => ['f', 'a', 'l', 's', 'e']
  | .number value => printNumber value
  | .string text => printString text

/-- The texts of an array's items. -/
def printIndentedItems (level : Nat) : List Value → List Text
  | [] => []
  | item :: items => printIndented level item :: printIndentedItems level items

/-- The texts of an object's entries. -/
def printIndentedEntries (level : Nat) : List (Text × Value) → List Text
  | [] => []
  | (key, value) :: entries =>
    (printString key ++ ':' :: ' ' :: printIndented level value) :: printIndentedEntries level entries

end

/-- The text of a value over several lines. -/
def printPretty (value : Value) : Text :=
  printIndented 0 value

end StackTemplate.Json
