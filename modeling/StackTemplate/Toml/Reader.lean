import StackTemplate.Toml.Quoted

/-! Reading a TOML document. Statements are read one by one and applied in
order, so the mistake that is told is the first in the text. -/
namespace StackTemplate.Toml

/-- The text after the blanks at its front. -/
def skipSpaces (text : Text) : Text :=
  text.dropWhile isSpace

/-- The text after a comment, if one is at its front. -/
def skipComment (text : Text) : Text :=
  match text with
  | '#' :: rest => rest.dropWhile isPrintable
  | _ => text

/-- Reads to the end of a line on which only a comment may follow. -/
def readLineEnd (text : Text) : Reading Unit :=
  let rest := skipComment (skipSpaces text)
  match rest with
  | [] => .ok ((), [])
  | _ => match afterLineEnd? rest with
    | some rest => .ok ((), rest)
    | none => .error rest

/-- Reads blanks, comments and line ends, at most `fuel` lines of them. A comment
without a line end, and a carriage return alone, cannot be passed over. -/
def readGap : (fuel : Nat) → Text → Reading Unit
  | 0, text => .ok ((), text)
  | fuel + 1, text =>
    match skipSpaces text with
    | [] => .ok ((), [])
    | c :: rest =>
      if c = '#' ∨ c = '\n' ∨ c = '\r' then
        match afterLineEnd? (skipComment (c :: rest)) with
        | some rest => readGap fuel rest
        | none => .error (skipComment (c :: rest))
      else .ok ((), c :: rest)

/-- Characters of a key without quotes. -/
def isBare (c : Char) : Bool :=
  c.isAlphanum || c == '-' || c == '_'

/-- Reads one key between dots. -/
def readKey (text : Text) : Reading Key :=
  match text with
  | [] => .error []
  | c :: _ =>
    if c = '"' ∨ c = '\'' then (readLine text).as fun name => ⟨name, text.length⟩
    else if isBare c then .ok (⟨text.takeWhile isBare, text.length⟩, text.dropWhile isBare)
    else .error text

/-- Whether a key can start here. -/
def startsKey (text : Text) : Bool :=
  text.head?.any fun c => c == '"' || c == '\'' || isBare c

/-- Reads keys with dots between them and blanks around them. A dot that no key
follows is left where it is. -/
def readKeys : (fuel : Nat) → Text → Reading (List Key)
  | 0, text => .error text
  | fuel + 1, text =>
    (readKey (skipSpaces text)).andThen fun key rest =>
      match skipSpaces rest with
      | '.' :: more =>
        if startsKey (skipSpaces more) then (readKeys fuel more).as (key :: ·)
        else .ok ([key], '.' :: more)
      | rest => .ok ([key], rest)

/-- The keys that one dotted key may have. -/
def maxKeys : Nat := 79

/-- Reads a dotted key: the path to its table, and the key in it. -/
def readPath (text : Text) : Reading (List Key × Key) :=
  (readKeys (text.length + 1) text).andThen fun keys rest =>
    match keys.getLast? with
    | some key => if keys.length > maxKeys then .error text else .ok ((keys.dropLast, key), rest)
    | none => .error text

/-- Reads a sign that has to be there. -/
def readMark (mark : Char) (text : Text) : Reading Unit :=
  match text with
  | c :: rest => if c = mark then .ok ((), rest) else .error text
  | [] => .error []

/-- Reads a dotted key and the item it is set to. -/
def readPair (readItem : Text → Reading Item) (text : Text) : Reading Statement :=
  (readPath text).andThen fun (path, key) rest =>
    (readMark '=' rest).andThen fun _ rest =>
      (readItem (skipSpaces rest)).as (.assignment path key)

/-- Reads the items of an array, after its bracket or a comma, with the bracket
that closes it. An item whose end cannot be found is reported at its start. -/
def readItems (readItem : Text → Reading Item) : (fuel : Nat) → Text → Reading (List Item)
  | 0, text => .error text
  | fuel + 1, text =>
    (readGap text.length text).andThen fun _ start =>
      match start with
      | ']' :: rest => .ok ([], rest)
      | _ =>
        (readItem start).andThen fun item rest =>
          match readGap rest.length rest with
          | .error _ => .error start
          | .ok (_, ',' :: rest) => (readItems readItem fuel rest).as (item :: ·)
          | .ok (_, ']' :: rest) => .ok ([item], rest)
          | .ok (_, rest) => .error rest

/-- Reads the pairs between braces. A comma that no key follows is left where it is. -/
def readPairs (readItem : Text → Reading Item) : (fuel : Nat) → Text → Reading (List Statement)
  | 0, text => .error text
  | fuel + 1, text =>
    (readPair readItem text).andThen fun pair rest =>
      match skipSpaces rest with
      | ',' :: more =>
        if startsKey (skipSpaces more) then (readPairs readItem fuel more).as (pair :: ·)
        else .ok ([pair], ',' :: more)
      | rest => .ok ([pair], rest)

/-- The entries that pairs between braces make. -/
def inlineEntries (pairs : List Statement) : Option Entries :=
  pairs.foldlM (fun entries pair =>
    match pair with
    | .assignment path key item => Entries.assign path key item .inline entries
    | _ => none) []

/-- Reads a table between braces, after the first of them. That its pairs fit
together is found out before the other brace is looked for. -/
def readInline (readItem : Text → Reading Item) (text : Text) : Reading Entries :=
  let start := skipSpaces text
  let pairs := if startsKey start then readPairs readItem (start.length + 1) start else .ok ([], start)
  pairs.andThen fun pairs rest =>
    match inlineEntries pairs with
    | none => .error text
    | some entries => (readMark '}' rest).as fun _ => entries

/-- Reads a keyword. -/
def readWord (word : Text) (item : Item) (text : Text) : Reading Item :=
  match Text.after? word text with
  | some rest => .ok (item, rest)
  | none => .error text

/-- The nesting that values may have. -/
def maxDepth : Nat := 79

/-- Reads a value in which arrays and inline tables nest at most `depth` deep. -/
def readItem (depth : Nat) (text : Text) : Reading Item :=
  let place := text.length
  match text with
  | [] => .error []
  | c :: rest =>
    if c = '"' ∨ c = '\'' then (readString text).as (.string place)
    else if c = '[' then
      match depth with
      | 0 => .error text
      | depth + 1 => (readItems (readItem depth) (rest.length + 1) rest).as (.array place)
    else if c = '{' then
      match depth with
      | 0 => .error text
      | depth + 1 => (readInline (readItem depth) rest).as (.table .inline (some place))
    else if c = 't' then readWord ['t', 'r', 'u', 'e'] (.boolean place true) text
    else if c = 'f' then readWord ['f', 'a', 'l', 's', 'e'] (.boolean place false) text
    else if c = 'i' then readWord ['i', 'n', 'f'] (.float place ['i', 'n', 'f']) text
    else if c = 'n' then readWord ['n', 'a', 'n'] (.float place ['n', 'a', 'n']) text
    else match number? text with
      | some (item, rest) => .ok (item, rest)
      | none => .error text

/-- Reads a header after its opening brackets, up to the end of its line. -/
def readHeader (closing : Text) (make : List Key → Key → Statement) (text : Text) :
    Reading Statement :=
  (readPath text).andThen fun (path, key) rest =>
    match Text.after? closing rest with
    | some rest => (readLineEnd rest).as fun _ => make path key
    | none => .error rest

/-- Reads a statement that starts at the front of the text. -/
def readStatement (text : Text) : Reading Statement :=
  match text with
  | '[' :: '[' :: rest => readHeader [']', ']'] .elementHeader rest
  | '[' :: rest => readHeader [']'] .header rest
  | _ =>
    (readPair (readItem maxDepth) text).andThen fun statement rest =>
      (readLineEnd rest).as fun _ => statement

/-- Reads statements and applies them, until none is left or one cannot be read
or applied; the place of that one is the result then. Each statement and each
blank line takes a character, so `fuel` bounds them. -/
def readStatements : (fuel : Nat) → Draft → Text → Except Nat Entries
  | 0, _, text => .error text.length
  | fuel + 1, draft, text =>
    match skipSpaces text with
    | [] => .ok draft.entries
    | '#' :: comment =>
      match readLineEnd ('#' :: comment) with
      | .ok (_, rest) => readStatements fuel draft rest
      | .error rest => .error rest.length
    | start =>
      match afterLineEnd? start with
      | some rest => readStatements fuel draft rest
      | none =>
        match readStatement start with
        | .error rest => .error rest.length
        | .ok (statement, rest) =>
          match draft.apply start.length statement with
          | some draft => readStatements fuel draft rest
          | none => .error start.length

/-- The text without a byte order mark. -/
def dropMark (text : Text) : Text :=
  match text with
  | c :: rest => if c.toNat = 0xFEFF then rest else text
  | [] => []

/-- The entries of a document, or the place of its first mistake. -/
def parse (text : Text) : Except Nat Entries :=
  readStatements (text.length + 1) {} (dropMark text)

/-- The line of a place. The end of the text counts as its last character. -/
def lineAt (text : Text) (place : Nat) : Nat :=
  1 + Text.lineEnds (text.take (min (text.length - place) (text.length - 1)))

end StackTemplate.Toml
