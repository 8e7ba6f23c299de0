import StackTemplate.Text.Extending
import StackTemplate.Text.Unprintable

/-! Text in double quotes, in which every character can be told apart: what
would not be seen, or not on its own, is written by its code. -/
namespace StackTemplate.Text

/-- One character between double quotes. -/
def quoteChar (c : Char) : Text :=
  if c = '"' then ['\\', '"']
  else if c = '\\' then ['\\', '\\']
  else if c = '\n' then ['\\', 'n']
  else if c = '\r' then ['\\', 'r']
  else if c = '\t' then ['\\', 't']
  else if c = '\x00' then ['\\', '0']
  else if isExtending c || isUnprintable c then
    ['\\', 'u', '{'] ++ Nat.toDigits 16 c.toNat ++ ['}']
  else [c]

/-- Text in double quotes. -/
def quote (text : Text) : Text :=
  '"' :: text.flatMap quoteChar ++ ['"']

end StackTemplate.Text
