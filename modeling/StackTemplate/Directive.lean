import StackTemplate.Directive.Name
import StackTemplate.Directive.Nesting
import StackTemplate.Fragment

/-! What an `@` starts. Reading a directive only looks at the text that follows
the `@`; nothing is scanned further and no file is touched, so the decision is
a function of that text alone. -/
namespace StackTemplate

/-- An expression as written: the keys of a lookup are still source text. -/
inductive Shape where
  | reference (name : Text)
  | attributeOf (name path : Text)
  | lookup (name : Text) (keys : List Directive.Key)
  deriving DecidableEq, Repr

namespace Shape

/-- The keys still to be scanned. -/
def keys : Shape → List Directive.Key
  | lookup _ keys => keys
  | _ => []

/-- Where the inside of the brackets begins, in bytes from the start of the expression. -/
def keysOffset : Shape → Nat
  | lookup name _ => Text.byteLength name + 1
  | _ => 0

/-- The expression, once its keys are known. -/
def build : Shape → List Fragment → Fragment
  | reference name, _ => .reference name
  | attributeOf name path, _ => .attributeOf name path
  | lookup name _, keys => .ofKeys name keys

end Shape

namespace Directive

/-- What decides where an expression ends. -/
inductive Mode where
  /-- The expression ends where the grammar stops matching. -/
  | greedy
  /-- The text is the body of a pair of braces. -/
  | delimited
  deriving DecidableEq, Repr

/-- The expression at the front of a text. -/
inductive Found where
  /-- No name starts there. -/
  | nothing
  /-- The bracket at this byte offset is never closed. -/
  | unclosed (offset : Nat)
  /-- An expression, the source text it takes and what follows. -/
  | expression (shape : Shape) (extent rest : Text)
  deriving DecidableEq, Repr

/-- A bracketed lookup. Brackets with a blank key are not part of the expression. -/
def findLookup (name inner : Text) : Found :=
  match enclosed .bracket inner with
  | none => .unclosed (Text.byteLength name)
  | some (inside, rest) =>
    let keys := splitKeys inside
    if keys.any (·.text.isEmpty) then .expression (.reference name) name ('[' :: inner)
    else .expression (.lookup name keys) (name ++ '[' :: inside ++ [']']) rest

/-- A dotted path. Without a character of a path the dot is not part of the expression. -/
def findAttribute (mode : Mode) (name tail : Text) : Found :=
  let (path, rest) := match mode with
    | .greedy => splitPath tail
    | .delimited => (tail, [])
  if path.isEmpty then .expression (.reference name) name ('.' :: tail)
  else .expression (.attributeOf name path) (name ++ '.' :: path) rest

/-- The expression at the front of a text: a name, or a name with bracketed
keys, or a name with a dotted path. Nothing follows a pair of brackets. -/
def findExpression (mode : Mode) (text : Text) : Found :=
  let (name, rest) := splitName text
  if name.isEmpty then .nothing
  else match rest with
    | '[' :: inner => findLookup name inner
    | '.' :: tail => findAttribute mode name tail
    | rest => .expression (.reference name) name rest

/-- What starts the name of a file to include. -/
def scheme : Text := ['f', 'i', 'l', 'e', ':', '/', '/']

/-- The file that a delimited body asks to include. -/
def delimitedPath? (body : Text) : Option Text :=
  match Text.after? scheme body with
  | some tail => if (Text.trim tail).isEmpty then none else some (Text.trim tail)
  | none => none

/-- The file that undelimited text asks to include. The path ends at a blank. -/
def greedyPath? (text : Text) : Option Text :=
  match Text.after? scheme text with
  | some tail =>
    let path := tail.takeWhile (fun c => !Text.isBlank c)
    if path.isEmpty then none else some path
  | none => none

end Directive

/-- What an `@` turned out to start. Offsets are in bytes from the `@`. -/
inductive Directive where
  /-- A doubled `@`. -/
  | escape
  /-- Nothing: the `@` is text. -/
  | plain
  /-- A file whose content takes the directive's place. -/
  | inclusion (path : Text)
  /-- An expression that begins at `lead`. -/
  | expression (lead : Nat) (shape : Shape)
  /-- A delimited body with text after its expression. Its keys are scanned
  before the body is given up, and the `@` is text. -/
  | rejected (lead : Nat) (shape : Shape)
  /-- A delimiter that is never closed. -/
  | unclosed (delimiter : Delimiter) (offset : Nat)
  deriving DecidableEq, Repr

namespace Directive

/-- A directive, the text it takes after its `@`, and what follows. -/
structure Reading where
  directive : Directive
  extent : Text
  rest : Text
  deriving DecidableEq, Repr

/-- A reading that takes nothing but the `@` itself. -/
def Reading.bare (directive : Directive) (text : Text) : Reading :=
  ⟨directive, [], text⟩

/-- Reads the directive of an `@` and an opening brace; `inner` follows the brace. -/
def readDelimited (inner : Text) : Reading :=
  match enclosed .brace inner with
  | none => .bare (.unclosed .brace 0) ('{' :: inner)
  | some (raw, rest) =>
    let body := Text.trim raw
    let lead := 2 + Text.byteLength (Text.leadingBlanks raw)
    match delimitedPath? body with
    | some path => ⟨.inclusion path, '{' :: raw ++ ['}'], rest⟩
    | none =>
      match findExpression .delimited body with
      | .nothing => .bare .plain ('{' :: inner)
      | .unclosed offset => .bare (.unclosed .bracket (lead + offset)) ('{' :: inner)
      | .expression shape _ [] => ⟨.expression lead shape, '{' :: raw ++ ['}'], rest⟩
      | .expression shape _ (_ :: _) => .bare (.rejected lead shape) ('{' :: inner)

/-- Reads the directive of an `@` and the start of a name. -/
def readGreedy (text : Text) : Reading :=
  match greedyPath? text with
  | some path => ⟨.inclusion path, scheme ++ path, text.drop (scheme ++ path).length⟩
  | none =>
    match findExpression .greedy text with
    | .nothing => .bare .plain text
    | .unclosed offset => .bare (.unclosed .bracket (1 + offset)) text
    | .expression shape extent rest => ⟨.expression 1 shape, extent, rest⟩

/-- Reads the directive of an `@` that `text` follows. -/
def read (text : Text) : Reading :=
  match text with
  | [] => .bare .plain []
  | c :: rest =>
    if c = '@' then ⟨.escape, ['@'], rest⟩
    else if c = '{' then readDelimited rest
    else if isNameStart c then readGreedy (c :: rest)
    else .bare .plain (c :: rest)

/-- The expression a directive has to scan keys for. -/
def shape? : Directive → Option Shape
  | expression _ shape => some shape
  | rejected _ shape => some shape
  | _ => none

private theorem findLookup_fits {name inner extent rest : Text} {shape : Shape}
    (found : findLookup name inner = .expression shape extent rest) :
    extent ++ rest = name ++ '[' :: inner ∧ room shape.keys ≤ (name ++ '[' :: inner).length := by
  unfold findLookup at found
  split at found
  · simp at found
  · next inside after closed =>
    have whole := enclosed_append closed
    have fits := room_splitKeys inside
    dsimp only at found
    split at found <;> cases found
    · simp [Shape.keys, room]
    · simp [whole, Delimiter.closer, Shape.keys]
      omega

private theorem findAttribute_fits {mode : Mode} {name tail extent rest : Text} {shape : Shape}
    (found : findAttribute mode name tail = .expression shape extent rest) :
    extent ++ rest = name ++ '.' :: tail ∧ shape.keys = [] := by
  have whole := splitPath_append tail
  cases mode <;> dsimp only [findAttribute] at found <;> split at found <;> cases found <;>
    simp_all [Shape.keys]

/-- After a name and a dot there is always an expression, and never a lookup. -/
theorem findAttribute_found (mode : Mode) (name tail : Text) :
    ∃ shape extent rest, findAttribute mode name tail = .expression shape extent rest ∧
      ∀ map keys, shape ≠ .lookup map keys := by
  cases mode <;> dsimp only [findAttribute] <;> split
  all_goals exact ⟨_, _, _, rfl, by simp⟩

/-- An expression takes the front of the text, and its keys fit in it. -/
theorem findExpression_fits {mode : Mode} {text extent rest : Text} {shape : Shape}
    (found : findExpression mode text = .expression shape extent rest) :
    extent ++ rest = text ∧ room shape.keys ≤ text.length := by
  have whole := splitName_append text
  unfold findExpression at found
  generalize splitName text = split at whole found
  obtain ⟨name, after⟩ := split
  dsimp only at whole found
  split at found
  · cases found
  · split at found
    · next inner =>
      exact whole ▸ findLookup_fits found
    · next tail =>
      obtain ⟨same, none⟩ := findAttribute_fits found
      exact ⟨whole ▸ same, by simp [none, room]⟩
    · cases found
      exact ⟨whole, by simp [Shape.keys, room]⟩

/-- A bracket that is never closed stands right after a name. -/
theorem findExpression_unclosed {mode : Mode} {text : Text} {offset : Nat}
    (found : findExpression mode text = .unclosed offset) :
    ∃ name inner, splitName text = (name, '[' :: inner) ∧ enclosed .bracket inner = none ∧
      offset = Text.byteLength name := by
  unfold findExpression at found
  generalize splitName text = split at found ⊢
  obtain ⟨name, rest⟩ := split
  dsimp only at found
  split at found
  · cases found
  · split at found
    · next inner =>
      unfold findLookup at found
      split at found
      · next notClosed =>
        cases found
        exact ⟨name, inner, rfl, notClosed, rfl⟩
      · dsimp only at found
        split at found <;> cases found
    · next tail =>
      obtain ⟨_, _, _, same, _⟩ := findAttribute_found mode name tail
      cases same.symm.trans found
    · cases found

/-- A lookup stands between the brackets right after its name. -/
theorem findExpression_lookup {mode : Mode} {text name extent rest : Text} {keys : List Key}
    (found : findExpression mode text = .expression (.lookup name keys) extent rest) :
    ∃ inner inside, splitName text = (name, '[' :: inner) ∧
      enclosed .bracket inner = some (inside, rest) ∧ keys = splitKeys inside ∧
      extent = name ++ '[' :: inside ++ [']'] := by
  unfold findExpression at found
  generalize splitName text = split at found ⊢
  obtain ⟨front, after⟩ := split
  dsimp only at found
  split at found
  · cases found
  · split at found
    · next inner =>
      unfold findLookup at found
      split at found
      · cases found
      · next inside rest closed =>
        dsimp only at found
        split at found
        · cases found
        · cases found
          exact ⟨inner, inside, rfl, closed, rfl, rfl⟩
    · next tail =>
      obtain ⟨_, _, _, same, notLookup⟩ := findAttribute_found mode front tail
      cases same.symm.trans found
      exact absurd rfl (notLookup _ _)
    · cases found

private theorem readDelimited_fits (inner : Text) :
    (readDelimited inner).extent ++ (readDelimited inner).rest = '{' :: inner ∧
      ∀ shape ∈ (readDelimited inner).directive.shape?, room shape.keys ≤ inner.length := by
  unfold readDelimited
  split
  · simp [Reading.bare, shape?]
  · next raw rest closed =>
    have whole := enclosed_append closed
    have trimmed := Text.length_trim_le raw
    have body {shape : Shape} {extent tail : Text}
        (found : findExpression .delimited (Text.trim raw) = .expression shape extent tail) :
        room shape.keys ≤ inner.length := by
      have fits := (findExpression_fits found).2
      rw [whole]
      simp only [List.length_append, List.length_cons]
      omega
    dsimp only
    split
    · simp [whole, Delimiter.closer, shape?]
    · split
      · simp [Reading.bare, shape?]
      · simp [Reading.bare, shape?]
      · next shape extent found =>
        have fits := body found
        simp only [whole] at fits
        simpa [shape?, whole, Delimiter.closer] using fits
      · next shape extent c tail found => simpa [Reading.bare, shape?] using body found

private theorem greedyPath?_append {text path : Text} (found : greedyPath? text = some path) :
    ∃ rest, text = scheme ++ path ++ rest := by
  unfold greedyPath? at found
  split at found
  · next tail starts =>
    have whole := Text.after?_eq_some starts
    dsimp only at found
    split at found <;> cases found
    exact ⟨tail.dropWhile fun c => !Text.isBlank c, by simp [whole]⟩
  · cases found

private theorem readGreedy_fits (text : Text) :
    (readGreedy text).extent ++ (readGreedy text).rest = text ∧
      ∀ shape ∈ (readGreedy text).directive.shape?, room shape.keys ≤ text.length := by
  unfold readGreedy
  split
  · next path found =>
    obtain ⟨rest, whole⟩ := greedyPath?_append found
    simp [whole, shape?]
  · split
    · simp [Reading.bare, shape?]
    · simp [Reading.bare, shape?]
    · next shape extent rest found => simpa [shape?] using findExpression_fits found

private theorem read_fits (text : Text) :
    (read text).extent ++ (read text).rest = text ∧
      ∀ shape ∈ (read text).directive.shape?, room shape.keys ≤ text.length := by
  unfold read
  split
  · simp [Reading.bare, shape?]
  · next c rest =>
    split
    · next escape => simp [escape, shape?]
    · split
      · next opener =>
        have fits := readDelimited_fits rest
        exact ⟨opener ▸ fits.1, fun shape member => Nat.le_succ_of_le (fits.2 shape member)⟩
      · split
        · exact readGreedy_fits (c :: rest)
        · simp [Reading.bare, shape?]

/-- A directive takes the front of the text after its `@`. -/
theorem read_append (text : Text) : (read text).extent ++ (read text).rest = text :=
  (read_fits text).1

/-- What follows a directive is no longer than the text after its `@`. -/
theorem length_rest_le (text : Text) : (read text).rest.length ≤ text.length := by
  have whole := congrArg List.length (read_append text)
  simp only [List.length_append] at whole
  omega

/-- The keys of an expression fit in the text after its `@`. -/
theorem room_keys_le {text : Text} {shape : Shape} (member : (read text).directive.shape? = some shape) :
    room shape.keys ≤ text.length :=
  (read_fits text).2 shape member

end Directive

end StackTemplate
