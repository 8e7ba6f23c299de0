import StackTemplate.Json.Number

/-! Reading JSON text. The nesting of arrays and objects is bounded, and a
failure is told by the line on which reading stopped. -/
namespace StackTemplate.Json

/-- The four blanks of JSON. -/
def isSpace (c : Char) : Bool :=
  c == ' ' || c == '\t' || c == '\n' || c == '\r'

/-- The text from its first character that is no blank. -/
def skipSpaces (text : Text) : Text :=
  text.dropWhile isSpace

/-- The value of a hexadecimal digit. -/
def hexValue? (c : Char) : Option Nat :=
  if c.isDigit then some (c.toNat - 48)
  else if 'a' ≤ c ∧ c ≤ 'f' then some (c.toNat - 87)
  else if 'A' ≤ c ∧ c ≤ 'F' then some (c.toNat - 55)
  else none

/-- What is left after the characters that the first `bytes` bytes belong to. -/
def dropBytes (bytes : Nat) : Text → Text
  | [] => []
  | c :: rest => if bytes = 0 then c :: rest else dropBytes (bytes - c.utf8Size) rest

/-- Reads four hexadecimal digits. Four bytes are consumed even if they are none. -/
def readUnit (text : Text) : Reading Nat :=
  match text with
  | a :: b :: c :: d :: rest =>
    match hexValue? a, hexValue? b, hexValue? c, hexValue? d with
    | some a, some b, some c, some d => .ok (((a * 16 + b) * 16 + c) * 16 + d, rest)
    | _, _, _, _ => .error (dropBytes 4 text)
  | _ => .error (dropBytes 4 text)

/-- Reads the second half of a surrogate pair whose first half is `high`. -/
def readTrail (high : Nat) (text : Text) : Reading Char :=
  match text with
  | '\\' :: 'u' :: rest =>
    (readUnit rest).andThen fun low rest =>
      if 0xDC00 ≤ low ∧ low ≤ 0xDFFF then
        .ok (Char.ofNat (0x10000 + (high - 0xD800) * 0x400 + (low - 0xDC00)), rest)
      else .error rest
  | '\\' :: rest => .error (rest.drop 1)
  | _ => .error (text.drop 1)

/-- Reads a character given by its code; the two halves of a surrogate pair make one. -/
def readCode (text : Text) : Reading Char :=
  (readUnit text).andThen fun unit rest =>
    if 0xDC00 ≤ unit ∧ unit ≤ 0xDFFF then .error rest
    else if 0xD800 ≤ unit ∧ unit ≤ 0xDBFF then readTrail unit rest
    else .ok (Char.ofNat unit, rest)

/-- Reads what follows a backslash. -/
def readEscape (text : Text) : Reading Char :=
  match text with
  | [] => .error []
  | c :: rest =>
    if c = 'u' then readCode rest
    else if c = '"' ∨ c = '\\' ∨ c = '/' then .ok (c, rest)
    else if c = 'b' then .ok (Char.ofNat 8, rest)
    else if c = 'f' then .ok (Char.ofNat 12, rest)
    else if c = 'n' then .ok ('\n', rest)
    else if c = 'r' then .ok ('\r', rest)
    else if c = 't' then .ok ('\t', rest)
    else .error rest

/-- Reads the inside of a string after its opening quote. Every step takes a
character, so `fuel` characters of text are read at most. -/
def readStringBody : (fuel : Nat) → Text → Reading Text
  | 0, text => .error text
  | _ + 1, [] => .error []
  | fuel + 1, c :: rest =>
    if c = '"' then .ok ([], rest)
    else if c = '\\' then
      (readEscape rest).andThen fun escaped rest => (readStringBody fuel rest).as (escaped :: ·)
    else if c.toNat < 32 then .error rest
    else (readStringBody fuel rest).as (c :: ·)

/-- Reads a string after its opening quote. -/
def readString (text : Text) : Reading Text :=
  readStringBody (text.length + 1) text

/-- Reads the remaining letters of a keyword. -/
def readWord : (word text : Text) → Reading Unit
  | [], text => .ok ((), text)
  | _ :: _, [] => .error []
  | w :: word, c :: rest => if c = w then readWord word rest else .error rest

/-- Reads the items of an array after its bracket or a comma. Every item takes a
character, so there are at most `fuel` of them. -/
def readItems (readItem : Text → Reading Value) : (fuel : Nat) → Text → Reading (List Value)
  | 0, text => .error text
  | fuel + 1, text =>
    (readItem text).andThen fun item rest =>
      match skipSpaces rest with
      | ']' :: rest => .ok ([item], rest)
      | ',' :: rest =>
        match skipSpaces rest with
        | [] => .error []
        | ']' :: rest => .error rest
        | rest => (readItems readItem fuel rest).as (item :: ·)
      | rest => .error (rest.drop 1)

/-- Reads one entry of an object, from the quote of its key on. -/
def readEntry (readItem : Text → Reading Value) (text : Text) : Reading (Text × Value) :=
  match text with
  | '"' :: rest =>
    (readString rest).andThen fun key rest =>
      match skipSpaces rest with
      | ':' :: rest => (readItem rest).as (key, ·)
      | rest => .error (rest.drop 1)
  | rest => .error (rest.drop 1)

/-- Reads the entries of an object after its brace or a comma. -/
def readEntries (readItem : Text → Reading Value) :
    (fuel : Nat) → Text → Reading (List (Text × Value))
  | 0, text => .error text
  | fuel + 1, text =>
    (readEntry readItem text).andThen fun entry rest =>
      match skipSpaces rest with
      | '}' :: rest => .ok ([entry], rest)
      | ',' :: rest => (readEntries readItem fuel (skipSpaces rest)).as (entry :: ·)
      | rest => .error (rest.drop 1)

/-- Reads a value in which arrays and objects are nested at most `depth` deep. -/
def readValue (depth : Nat) (text : Text) : Reading Value :=
  match skipSpaces text with
  | [] => .error []
  | c :: rest =>
    if c = 'n' then (readWord ['u', 'l', 'l'] rest).as fun _ => .null
    else if c = 't' then (readWord ['r', 'u', 'e'] rest).as fun _ => .boolean true
    else if c = 'f' then (readWord ['a', 'l', 's', 'e'] rest).as fun _ => .boolean false
    else if c = '-' then (readNumber true rest).as .number
    else if c.isDigit then (readNumber false (c :: rest)).as .number
    else if c = '"' then (readString rest).as .string
    else if c = '[' then
      match depth with
      | 0 => .error rest
      | depth + 1 =>
        match skipSpaces rest with
        | [] => .error []
        | ']' :: rest => .ok (.array [], rest)
        | rest => (readItems (readValue depth) (rest.length + 1) rest).as .array
    else if c = '{' then
      match depth with
      | 0 => .error rest
      | depth + 1 =>
        match skipSpaces rest with
        | [] => .error []
        | '}' :: rest => .ok (.object [], rest)
        | rest =>
          (readEntries (readValue depth) (rest.length + 1) rest).as fun entries =>
            .object (Value.ofEntries entries)
    else .error rest

/-- The line on which reading stopped, when `rest` was left of the text. -/
def stopLine (text rest : Text) : Nat :=
  1 + Text.lineEnds text - Text.lineEnds rest

/-- The nesting that a document may have. -/
def documentDepth : Nat := 127

/-- The value of a whole text, or the line on which it stops being JSON. -/
def parse (depth : Nat) (text : Text) : Except Nat Value :=
  match readValue depth text with
  | .error rest => .error (stopLine text rest)
  | .ok (value, rest) =>
    match skipSpaces rest with
    | [] => .ok value
    | _ :: rest => .error (stopLine text rest)

end StackTemplate.Json
