import StackTemplate.Error

/-! Delimiters and what they enclose. Matching counts one kind of delimiter;
cutting at commas counts both kinds together and never goes below zero. -/
namespace StackTemplate.Directive

/-- Puts a character in front of the enclosed text. -/
def enclose (c : Char) : Text × Text → Text × Text
  | (inside, rest) => (c :: inside, rest)

/-- The text up to the closer that matches an opener just read, and what
follows that closer. `depth` further openers are still to be closed first. -/
def closing (opener closer : Char) (depth : Nat) : Text → Option (Text × Text)
  | [] => none
  | c :: rest =>
    if c = opener then (closing opener closer (depth + 1) rest).map (enclose c)
    else if c = closer then
      match depth with
      | 0 => some ([], rest)
      | depth + 1 => (closing opener closer depth rest).map (enclose c)
    else (closing opener closer depth rest).map (enclose c)

/-- What an opener just read encloses, and what follows its closer. -/
def enclosed (delimiter : Delimiter) (text : Text) : Option (Text × Text) :=
  closing delimiter.opener delimiter.closer 0 text

/-- The depth after a character, with brackets and braces counted alike. -/
def depthAfter (depth : Nat) (c : Char) : Nat :=
  if c = '[' ∨ c = '{' then depth + 1
  else if c = ']' ∨ c = '}' then depth - 1
  else depth

/-- Puts a character in front of the first piece. -/
def extendFirst (c : Char) : List Text → List Text
  | [] => [[c]]
  | piece :: pieces => (c :: piece) :: pieces

/-- The pieces between the commas that stand outside all delimiters. -/
def cutAtCommas (depth : Nat) : Text → List Text
  | [] => [[]]
  | c :: rest =>
    if c = ',' ∧ depth = 0 then [] :: cutAtCommas depth rest
    else extendFirst c (cutAtCommas (depthAfter depth c) rest)

/-- A key between brackets, without the blanks around it, and its byte offset
in the text it was cut from. A blank key is placed at the end of its piece. -/
structure Key where
  offset : Nat
  text : Text
  deriving DecidableEq, Repr

/-- The keys of consecutive pieces, the first of which starts at a byte offset. -/
def keysFrom (start : Nat) : List Text → List Key
  | [] => []
  | piece :: pieces =>
    { offset := start + Text.byteLength (Text.leadingBlanks piece), text := Text.trim piece } ::
      keysFrom (start + Text.byteLength piece + 1) pieces

/-- The keys that the inside of a pair of brackets holds. -/
def splitKeys (inside : Text) : List Key :=
  keysFrom 0 (cutAtCommas 0 inside)

/-- The room that keys and the commas between them take in a text. -/
def room : List Key → Nat
  | [] => 0
  | key :: keys => key.text.length + 1 + room keys

theorem closing_append {opener closer : Char} {depth : Nat} {text inside rest : Text}
    (closed : closing opener closer depth text = some (inside, rest)) :
    text = inside ++ closer :: rest := by
  induction text generalizing depth inside with
  | nil => simp [closing] at closed
  | cons c text ih =>
    have step {depth : Nat}
        (found : (closing opener closer depth text).map (enclose c) = some (inside, rest)) :
        c :: text = inside ++ closer :: rest := by
      obtain ⟨⟨inner, tail⟩, here, same⟩ := Option.map_eq_some_iff.mp found
      simp only [enclose, Prod.mk.injEq] at same
      obtain ⟨rfl, rfl⟩ := same
      simp [ih here]
    unfold closing at closed
    split at closed
    · exact step closed
    · split at closed
      · next isCloser =>
        cases depth with
        | zero =>
          simp only [Option.some.injEq, Prod.mk.injEq] at closed
          simp [← closed.1, ← closed.2, isCloser]
        | succ depth => exact step closed
      · exact step closed

/-- What is enclosed, its closer and the remainder make up the text. -/
theorem enclosed_append {delimiter : Delimiter} {text inside rest : Text}
    (closed : enclosed delimiter text = some (inside, rest)) :
    text = inside ++ delimiter.closer :: rest :=
  closing_append closed

theorem cutAtCommas_ne_nil (depth : Nat) (text : Text) : cutAtCommas depth text ≠ [] := by
  cases text with
  | nil => simp [cutAtCommas]
  | cons c rest =>
    unfold cutAtCommas
    split
    · simp
    · cases cutAtCommas (depthAfter depth c) rest <;> simp [extendFirst]

/-- Cutting at commas loses nothing but the commas. -/
theorem intercalate_cutAtCommas (depth : Nat) (text : Text) :
    [','].intercalate (cutAtCommas depth text) = text := by
  induction text generalizing depth with
  | nil => rfl
  | cons c rest ih =>
    unfold cutAtCommas
    split
    · next cut =>
      have later := ih depth
      cases found : cutAtCommas depth rest with
      | nil => exact absurd found (cutAtCommas_ne_nil depth rest)
      | cons piece pieces =>
        rw [found] at later
        simpa [List.intercalate, cut.1] using later
    · have later := ih (depthAfter depth c)
      cases found : cutAtCommas (depthAfter depth c) rest with
      | nil => exact absurd found (cutAtCommas_ne_nil _ rest)
      | cons piece pieces =>
        rw [found] at later
        cases pieces with
        | nil => simpa [List.intercalate, extendFirst] using later
        | cons next pieces => simpa [List.intercalate, extendFirst] using later

private theorem room_keysFrom (start : Nat) {pieces : List Text} (full : pieces ≠ []) :
    room (keysFrom start pieces) ≤ ([','].intercalate pieces).length + 1 := by
  induction pieces generalizing start with
  | nil => exact absurd rfl full
  | cons piece pieces ih =>
    have trimmed := Text.length_trim_le piece
    cases pieces with
    | nil =>
      simp only [keysFrom, room, List.intercalate_singleton]
      omega
    | cons next pieces =>
      have tail := ih (start + Text.byteLength piece + 1) (by simp)
      rw [keysFrom, room, List.intercalate_cons_cons]
      simp only [List.length_append, List.length_singleton]
      omega

/-- Keys never take more room than the brackets they were read from. -/
theorem room_splitKeys (inside : Text) : room (splitKeys inside) ≤ inside.length + 1 := by
  have fits := room_keysFrom 0 (cutAtCommas_ne_nil 0 inside)
  rwa [intercalate_cutAtCommas] at fits

end StackTemplate.Directive
