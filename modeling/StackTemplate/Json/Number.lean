import StackTemplate.Json.Value
import StackTemplate.Reading

/-! Reading a JSON number. A whole number within 64 bits is kept exactly; any
other number is a significand of at most 64 bits times a power of ten, rounded
to double precision. Reading stops with the text not yet looked at. -/
namespace StackTemplate.Json

/-- The largest significand that is kept. -/
def maxSignificand : Nat := Nat.pow 2 64 - 1

/-- The largest exponent that can be written out. -/
def maxWrittenExponent : Nat := Nat.pow 2 31 - 1

/-- The value of a decimal digit. -/
def digitValue (c : Char) : Nat :=
  c.toNat - 48

/-- A number as far as it has been read: `significand · 10 ^ exponent`. -/
structure Gathered where
  significand : Nat
  exponent : Int
  /-- Whether every digit so far is in the significand. -/
  exact : Bool
  deriving Repr

namespace Gathered

/-- The significand with one more digit. -/
def extended (number : Gathered) (digit : Char) : Nat :=
  number.significand * 10 + digitValue digit

/-- Takes in the digits before the point. From the first that does not fit, they
only count towards the exponent. -/
def takeWhole : Gathered → Text → Gathered
  | number, [] => number
  | number, digit :: digits =>
    if number.exact ∧ number.extended digit ≤ maxSignificand then
      takeWhole { number with significand := number.extended digit } digits
    else takeWhole { number with exponent := number.exponent + 1, exact := false } digits

/-- Takes in the digits after the point. The first that does not fit and all
after it are dropped. -/
def takeFraction : Gathered → Text → Gathered
  | number, [] => number
  | number, digit :: digits =>
    if number.extended digit ≤ maxSignificand then
      takeFraction
        { number with significand := number.extended digit, exponent := number.exponent - 1 } digits
    else number

/-- The number in double precision, unless it is out of range. -/
def real (negative : Bool) (number : Gathered) (rest : Text) : Reading Number :=
  match Binary64.ofDecimal negative number.significand number.exponent with
  | some x => .ok (.real x, rest)
  | none => .error rest

/-- A number without point or exponent. Minus zero is a real. -/
def whole (negative : Bool) (number : Gathered) (rest : Text) : Reading Number :=
  if number.exact ∧ (negative = false ∨ (0 < number.significand ∧ number.significand ≤ Nat.pow 2 63)) then
    .ok (.integer (if negative then -number.significand else number.significand), rest)
  else number.real negative rest

/-- The number shifted by an exponent of these digits. One too large to be written
out leaves zero or is out of range. -/
def shifted (negative down : Bool) (number : Gathered) (digits rest : Text) : Reading Number :=
  let power := digits.foldl (fun n digit => n * 10 + digitValue digit) 0
  if power > maxWrittenExponent then
    if number.significand ≠ 0 ∧ down = false then .error rest
    else .ok (.real (.zero negative), rest)
  else
    let shift : Int := if down then -power else power
    { number with exponent := number.exponent + shift }.real negative rest

/-- Reads the digits of an exponent, of which there must be one. -/
def readPower (negative down : Bool) (number : Gathered) (text : Text) : Reading Number :=
  match text with
  | [] => .error []
  | first :: rest =>
    if first.isDigit then
      number.shifted negative down (text.takeWhile Char.isDigit) (text.dropWhile Char.isDigit)
    else .error rest

/-- Reads the exponent after its mark. -/
def readExponent (negative : Bool) (number : Gathered) (text : Text) : Reading Number :=
  match text with
  | '+' :: rest => number.readPower negative false rest
  | '-' :: rest => number.readPower negative true rest
  | _ => number.readPower negative false text

/-- Reads an exponent, if one follows the digits after the point. -/
def readAfterFraction (negative : Bool) (number : Gathered) (text : Text) : Reading Number :=
  match text with
  | c :: rest =>
    if c = 'e' ∨ c = 'E' then number.readExponent negative rest else number.real negative text
  | [] => number.real negative text

/-- Reads the digits after the point, of which there must be one. -/
def readFraction (negative : Bool) (number : Gathered) (text : Text) : Reading Number :=
  let digits := text.takeWhile Char.isDigit
  if digits.isEmpty then .error (text.drop 1)
  else (number.takeFraction digits).readAfterFraction negative (text.dropWhile Char.isDigit)

/-- Reads what may follow the digits before the point. -/
def readAfterWhole (negative : Bool) (number : Gathered) (text : Text) : Reading Number :=
  match text with
  | c :: rest =>
    if c = '.' then number.readFraction negative rest
    else if c = 'e' ∨ c = 'E' then number.readExponent negative rest
    else number.whole negative text
  | [] => number.whole negative text

end Gathered

/-- Reads a number after its sign. A leading zero stands alone. -/
def readNumber (negative : Bool) (text : Text) : Reading Number :=
  let none : Gathered := { significand := 0, exponent := 0, exact := true }
  match text with
  | [] => .error []
  | c :: rest =>
    if c = '0' then
      if rest.head?.any Char.isDigit then .error (rest.drop 1)
      else none.readAfterWhole negative rest
    else if c.isDigit then
      (none.takeWhole (text.takeWhile Char.isDigit)).readAfterWhole negative
        (text.dropWhile Char.isDigit)
    else .error rest

end StackTemplate.Json
