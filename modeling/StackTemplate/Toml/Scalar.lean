import StackTemplate.Binary64
import StackTemplate.Toml.Item

/-! Numbers, dates and times. Each reader gives the literal at the front of a
text and what follows it, or nothing if the text starts with none. -/
namespace StackTemplate.Toml

/-- The value of a digit in bases up to sixteen. -/
def digitValue (c : Char) : Nat :=
  if c.isDigit then c.toNat - 48 else c.toLower.toNat - 87

/-- The number that digits denote in a base. -/
def ofDigits (base : Nat) (digits : Text) : Nat :=
  digits.foldl (fun n digit => n * base + digitValue digit) 0

/-- Digits of base sixteen. -/
def isHexDigit (c : Char) : Bool :=
  c.isDigit || ('a' ≤ c.toLower && c.toLower ≤ 'f')

/-- Digits of base eight. -/
def isOctalDigit (c : Char) : Bool :=
  '0' ≤ c && c ≤ '7'

/-- Digits of base two. -/
def isBinaryDigit (c : Char) : Bool :=
  c == '0' || c == '1'

/-- The digits that follow a digit. Each underscore stands between two digits. -/
def moreDigits (isDigit : Char → Bool) : Text → Option (Text × Text)
  | '_' :: c :: rest =>
    if isDigit c then (moreDigits isDigit rest).map fun (digits, rest) => (c :: digits, rest)
    else none
  | c :: rest =>
    if isDigit c then (moreDigits isDigit rest).map fun (digits, rest) => (c :: digits, rest)
    else if c = '_' then none
    else some ([], c :: rest)
  | [] => some ([], [])

/-- One digit or more. -/
def digits? (isDigit : Char → Bool) : Text → Option (Text × Text)
  | c :: rest =>
    if isDigit c then (moreDigits isDigit rest).map fun (digits, rest) => (c :: digits, rest)
    else none
  | [] => none

/-- A sign, if there is one: whether it is a minus, and what follows. -/
def sign : Text → Bool × Text
  | '+' :: rest => (false, rest)
  | '-' :: rest => (true, rest)
  | text => (false, text)

/-- The digits of a whole number. A zero in front stands alone. -/
def wholeDigits? : Text → Option (Text × Text)
  | '0' :: rest => some (['0'], rest)
  | text => digits? Char.isDigit text

/-- The exponent of a float, if one is written: its value, and what follows. -/
def exponent? : Text → Option (Int × Text)
  | c :: rest =>
    if c = 'e' ∨ c = 'E' then
      let (negative, rest) := sign rest
      (digits? Char.isDigit rest).map fun (digits, rest) =>
        let power := ofDigits 10 digits
        (if negative then -power else power, rest)
    else none
  | [] => none

/-- Whether `significand · 10 ^ exponent` rounds to a number of double precision. -/
def fitsDouble (significand : Nat) (exponent : Int) : Bool :=
  let size := exponent + (Nat.toDigits 10 significand).length
  if significand = 0 ∨ size < 300 then true
  else if size > 320 then false
  else if 0 ≤ exponent then (Binary64.ofFraction false (significand * Nat.pow 10 exponent.toNat) 1).isSome
  else (Binary64.ofFraction false significand (Nat.pow 10 (-exponent).toNat)).isSome

/-- A float with a point or an exponent: what is left after it. One too large is
refused unless it is negative. -/
def afterFloat? (text : Text) : Option Text := do
  let (negative, rest) := sign text
  let (whole, rest) ← wholeDigits? rest
  let (fraction, power, rest) ← match rest with
    | '.' :: rest => do
      let (fraction, rest) ← digits? Char.isDigit rest
      match rest with
      | [] => some (fraction, (0 : Int), rest)
      | c :: _ =>
        if c = 'e' ∨ c = 'E' then (exponent? rest).map fun (power, rest) => (fraction, power, rest)
        else some (fraction, 0, rest)
    | rest => (exponent? rest).map fun (power, rest) => ([], power, rest)
  if negative ∨ fitsDouble (ofDigits 10 (whole ++ fraction)) (power - fraction.length) then some rest
  else none

/-- An infinity or the value that is no number: what is left after it. -/
def afterSpecial? (text : Text) : Option Text :=
  let rest := (sign text).2
  (Text.after? ['i', 'n', 'f'] rest).or (Text.after? ['n', 'a', 'n'] rest)

/-- An integer of 64 bits. Other bases have no sign. -/
def integer? (text : Text) : Option (Int × Text) := do
  let inBase (base : Nat) (isDigit : Char → Bool) (rest : Text) : Option (Int × Text) := do
    let (digits, rest) ← digits? isDigit rest
    let value := ofDigits base digits
    if value < Nat.pow 2 63 then some (value, rest) else none
  match text with
  | '0' :: 'x' :: rest => inBase 16 isHexDigit rest
  | '0' :: 'o' :: rest => inBase 8 isOctalDigit rest
  | '0' :: 'b' :: rest => inBase 2 isBinaryDigit rest
  | text =>
    let (negative, rest) := sign text
    let (digits, rest) ← wholeDigits? rest
    let magnitude := ofDigits 10 digits
    if negative then
      if magnitude ≤ Nat.pow 2 63 then some (-magnitude, rest) else none
    else if magnitude < Nat.pow 2 63 then some (magnitude, rest)
    else none

/-- So many digits, as a number no greater than a bound. -/
def fixed? (count least greatest : Nat) (text : Text) : Option (Nat × Text) :=
  let digits := text.take count
  let value := ofDigits 10 digits
  if digits.length = count ∧ digits.all Char.isDigit ∧ least ≤ value ∧ value ≤ greatest then
    some (value, text.drop count)
  else none

/-- What follows a given character. -/
def skip? (c : Char) : Text → Option Text
  | first :: rest => if first = c then some rest else none
  | [] => none

/-- The number of days in a month. -/
def monthDays (year month : Nat) : Nat :=
  if month = 2 then
    if year % 4 = 0 ∧ (year % 100 ≠ 0 ∨ year % 400 = 0) then 29 else 28
  else if month = 4 ∨ month = 6 ∨ month = 9 ∨ month = 11 then 30
  else 31

/-- What follows a date of the calendar. -/
def afterDate? (text : Text) : Option Text := do
  let (year, rest) ← fixed? 4 0 9999 text
  let (month, rest) ← fixed? 2 1 12 (← skip? '-' rest)
  let (_, rest) ← fixed? 2 1 (monthDays year month) (← skip? '-' rest)
  some rest

/-- What follows a time of day. Seconds may have a fraction. -/
def afterTime? (text : Text) : Option Text := do
  let (_, rest) ← fixed? 2 0 23 text
  let (_, rest) ← fixed? 2 0 59 (← skip? ':' rest)
  let (_, rest) ← fixed? 2 0 60 (← skip? ':' rest)
  match rest with
  | '.' :: c :: tail => if c.isDigit then some (tail.dropWhile Char.isDigit) else some rest
  | _ => some rest

/-- What follows an offset from universal time, if there is one. -/
def afterOffset (text : Text) : Text :=
  match text with
  | [] => []
  | c :: rest =>
    if c = 'Z' ∨ c = 'z' then rest
    else if c = '+' ∨ c = '-' then
      (do
        let (_, rest) ← fixed? 2 0 23 rest
        let (_, rest) ← fixed? 2 0 59 (← skip? ':' rest)
        some rest).getD text
    else text

/-- What follows a date, a time or both. -/
def afterDatetime? (text : Text) : Option Text :=
  match afterDate? text with
  | some rest =>
    match rest with
    | c :: tail =>
      if c = 'T' ∨ c = 't' ∨ c = ' ' then some (((afterTime? tail).map afterOffset).getD rest)
      else some rest
    | [] => some rest
  | none => afterTime? text

/-- The part of a text in front of its remainder. -/
def written (text rest : Text) : Text :=
  text.take (text.length - rest.length)

/-- A number, a date or a time at the front of a text. -/
def number? (text : Text) : Option (Item × Text) :=
  let place := text.length
  match afterDatetime? text with
  | some rest => some (.datetime place (written text rest), rest)
  | none =>
    match (afterFloat? text).or (afterSpecial? text) with
    | some rest => some (.float place (written text rest), rest)
    | none => (integer? text).map fun (value, rest) => (.integer place value, rest)

end StackTemplate.Toml
