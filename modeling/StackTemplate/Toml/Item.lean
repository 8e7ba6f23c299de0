import StackTemplate.Text

/-! The items of a TOML document and how its statements build the tree. Every
item remembers where it was written; a place is the number of characters that
follow it, so that reading needs no count of what went before. -/
namespace StackTemplate.Toml

/-- A key and the place where it was first written. -/
structure Key where
  name : Text
  place : Nat
  deriving DecidableEq, Repr

/-- How a table came to be. -/
inductive Kind where
  /-- By a header of its own, or by being the document. -/
  | headed
  /-- By a longer header. -/
  | implied
  /-- By a dotted key. -/
  | dotted
  /-- Between braces. -/
  | inline
  deriving DecidableEq, Repr

/-- What a key can stand for. Numbers that no integer can hold and dates are
kept as they were written. -/
inductive Item where
  | string (place : Nat) (text : Text)
  | integer (place : Nat) (value : Int)
  | float (place : Nat) (written : Text)
  | boolean (place : Nat) (value : Bool)
  | datetime (place : Nat) (written : Text)
  | array (place : Nat) (items : List Item)
  /-- A table that only other tables or dotted keys name has no place. -/
  | table (kind : Kind) (place : Option Nat) (entries : List (Key × Item))
  /-- Tables under a doubled header. -/
  | tables (elements : List Item)
  deriving Repr

/-- The entries of a table, in the order in which they came. -/
abbrev Entries := List (Key × Item)

/-- Where an item was written, if it has a place of its own. -/
def Item.place? : Item → Option Nat
  | string place _ => some place
  | integer place _ => some place
  | float place _ => some place
  | boolean place _ => some place
  | datetime place _ => some place
  | array place _ => some place
  | table _ place _ => place
  | tables (table _ place _ :: _) => place
  | tables _ => none

namespace Entries

/-- The item under a name. -/
def get? (name : Text) (entries : Entries) : Option Item :=
  (entries.find? (·.1.name = name)).map (·.2)

/-- Changes the item of a key where it stands, or adds one at the end. -/
def alter (key : Key) (change : Option Item → Option Item) : Entries → Option Entries
  | [] => (change none).map fun item => [(key, item)]
  | (existing, old) :: entries =>
    if existing.name = key.name then (change (some old)).map fun item => (existing, item) :: entries
    else (alter key change entries).map ((existing, old) :: ·)

/-- Adds an item under a key that is not yet taken. -/
def add (key : Key) (item : Item) (entries : Entries) : Option Entries :=
  if (get? key.name entries).isSome then none else some (entries ++ [(key, item)])

/-- Whether a path may go on through a table. A dotted key stays among tables
that no header made; a header may not enter braces. -/
def mayEnter (byDots : Bool) (kind : Kind) : Bool :=
  if byDots then kind == .implied || kind == .dotted else kind != .inline

/-- Changes the table that a path leads to, making tables where there are none.
In a list of tables the path goes on in the last. -/
def within (byDots : Bool) (change : Kind → Entries → Option Entries) :
    List Key → Kind → Entries → Option Entries
  | [], kind, entries => change kind entries
  | key :: path, _, entries =>
    alter key (fun
      | none =>
        let kind := if byDots then .dotted else .implied
        (within byDots change path kind []).map (.table kind none)
      | some (.table kind place inner) =>
        if mayEnter byDots kind then (within byDots change path kind inner).map (.table kind place)
        else none
      | some (.tables elements) =>
        match elements.getLast? with
        | some (.table kind place inner) =>
          (within byDots change path kind inner).map fun inner =>
            .tables (elements.dropLast ++ [.table kind place inner])
        | _ => none
      | some _ => none) entries

/-- Sets a key below a dotted path. A dotted key and a plain one never fill the
same table. -/
def assign (path : List Key) (key : Key) (item : Item) (kind : Kind) (entries : Entries) :
    Option Entries :=
  within true (fun kind entries =>
    if (kind == .dotted) == path.isEmpty then none else add key item entries) path kind entries

/-- Opens a table under a header. A table that was only implied so far is taken
up again and moves to the end. -/
def openTable (key : Key) (place : Nat) (entries : Entries) : Option Entries :=
  match get? key.name entries with
  | none => some (entries ++ [(key, .table .headed (some place) [])])
  | some (.table .implied _ inner) =>
    some (entries.filter (·.1.name ≠ key.name) ++ [(key, .table .headed (some place) inner)])
  | some _ => none

/-- Opens one more table of a list under a doubled header. -/
def openElement (key : Key) (place : Nat) (entries : Entries) : Option Entries :=
  alter key (fun
    | none => some (.tables [.table .headed (some place) []])
    | some (.tables elements) => some (.tables (elements ++ [.table .headed (some place) []]))
    | some _ => none) entries

end Entries

/-- A statement of a document. -/
inductive Statement where
  /-- An item for a key below a dotted path. -/
  | assignment (path : List Key) (key : Key) (item : Item)
  /-- The header of a table. -/
  | header (path : List Key) (key : Key)
  /-- The header of one more table of a list. -/
  | elementHeader (path : List Key) (key : Key)
  deriving Repr

/-- A document as far as its statements have been applied: the tree, and the
path of the table that assignments go to. -/
structure Draft where
  entries : Entries := []
  current : List Key := []

/-- Applies a statement that was written at a place. -/
def Draft.apply (draft : Draft) (place : Nat) : Statement → Option Draft
  | .assignment path key item =>
    (Entries.within false (Entries.assign path key item) draft.current .headed draft.entries).map
      fun entries => { draft with entries }
  | .header path key =>
    (Entries.within false (fun _ => Entries.openTable key place) path .headed draft.entries).map
      fun entries => { entries, current := path ++ [key] }
  | .elementHeader path key =>
    (Entries.within false (fun _ => Entries.openElement key place) path .headed draft.entries).map
      fun entries => { entries, current := path ++ [key] }

end StackTemplate.Toml
