import StackTemplate.Binary64
import StackTemplate.Text

/-! JSON values. An object keeps its entries in the order of the document. -/
namespace StackTemplate.Json

/-- A whole number, or a number in double precision. -/
inductive Number where
  | integer (n : Int)
  | real (x : Binary64)
  deriving DecidableEq, Repr

/-- A JSON value. -/
inductive Value where
  | null
  | boolean (value : Bool)
  | number (value : Number)
  | string (text : Text)
  | array (items : List Value)
  | object (entries : List (Text × Value))
  deriving Repr, Inhabited

namespace Value

/-- Sets an entry: a key that is already there keeps its place. -/
def insert (key : Text) (value : Value) : List (Text × Value) → List (Text × Value)
  | [] => [(key, value)]
  | (existing, old) :: entries =>
    if existing = key then (existing, value) :: entries
    else (existing, old) :: insert key value entries

/-- The entries of an object in which a key may have been written twice. -/
def ofEntries (entries : List (Text × Value)) : List (Text × Value) :=
  entries.foldl (fun known entry => insert entry.1 entry.2 known) []

/-- The value of an object's entry. -/
def get? (key : Text) : Value → Option Value
  | object entries => (entries.find? (·.1 = key)).map (·.2)
  | _ => none

end Value

end StackTemplate.Json
