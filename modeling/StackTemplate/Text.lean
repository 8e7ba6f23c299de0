/-! Template text is a list of characters, so that scanning is recursion on the
text itself. Offsets that leave the library count UTF-8 bytes, and blanks are
the characters with the Unicode property White_Space. -/
namespace StackTemplate

/-- Text as the scanners see it. -/
abbrev Text := List Char

namespace Text

/-- The number of bytes the text takes in UTF-8. -/
def byteLength : Text → Nat
  | [] => 0
  | c :: text => c.utf8Size + byteLength text

@[simp] theorem byteLength_nil : byteLength [] = 0 := rfl

@[simp] theorem byteLength_cons (c : Char) (text : Text) :
    byteLength (c :: text) = c.utf8Size + byteLength text := rfl

@[simp] theorem byteLength_append (first second : Text) :
    byteLength (first ++ second) = byteLength first + byteLength second := by
  induction first with
  | nil => simp
  | cons c first ih => simp [ih, Nat.add_assoc]

/-- The bytes of the text in UTF-8. -/
def encode (text : Text) : ByteArray :=
  (String.ofList text).toUTF8

/-- The text that bytes are in UTF-8, if they are. -/
def decode? (bytes : ByteArray) : Option Text :=
  (String.fromUTF8? bytes).map String.toList

theorem decode?_encode (text : Text) : decode? (encode text) = some text := by
  have valid : (encode text).IsValidUTF8 := (String.ofList text).isValidUTF8
  have same : String.fromUTF8 (encode text) valid = String.ofList text := rfl
  simp [decode?, String.fromUTF8?, valid, same]

/-- The twenty-five characters with the property White_Space. -/
def isBlank (c : Char) : Bool :=
  let code := c.toNat
  (0x09 ≤ code && code ≤ 0x0D) || code == 0x20 || code == 0x85 || code == 0xA0 ||
    code == 0x1680 || (0x2000 ≤ code && code ≤ 0x200A) || code == 0x2028 ||
    code == 0x2029 || code == 0x202F || code == 0x205F || code == 0x3000

/-- The blanks at the front of the text. -/
def leadingBlanks (text : Text) : Text :=
  text.takeWhile isBlank

/-- The text without the blanks at its front. -/
def trimStart (text : Text) : Text :=
  text.dropWhile isBlank

/-- The text without the blanks at its end. -/
def trimEnd (text : Text) : Text :=
  (text.reverse.dropWhile isBlank).reverse

/-- The text without the blanks at either end. -/
def trim (text : Text) : Text :=
  trimEnd (trimStart text)

/-- What follows `start` in a text that begins with it. -/
def after? : (start text : Text) → Option Text
  | [], text => some text
  | _ :: _, [] => none
  | s :: start, c :: text => if s = c then after? start text else none

/-- A number in decimal digits. -/
def ofNat (n : Nat) : Text :=
  Nat.toDigits 10 n

/-- The number of line ends in the text. -/
def lineEnds (text : Text) : Nat :=
  text.count '\n'

/-- Lengths only shrink when blanks go, so a trimmed text can be scanned in the
place of the text it came from. -/
theorem length_trim_le (text : Text) : (trim text).length ≤ text.length := by
  have shorter (cs : Text) : (cs.dropWhile isBlank).length ≤ cs.length :=
    (List.dropWhile_suffix isBlank).length_le
  simpa [trim, trimEnd, trimStart] using
    Nat.le_trans (shorter (text.dropWhile isBlank).reverse) (by simpa using shorter text)

theorem after?_eq_some {start text rest : Text} (found : after? start text = some rest) :
    text = start ++ rest := by
  induction start generalizing text with
  | nil => simpa [after?] using found
  | cons s start ih =>
    cases text with
    | nil => simp [after?] at found
    | cons c text =>
      by_cases same : s = c
      · subst same
        simp only [after?] at found
        simp [ih found]
      · simp [after?, same] at found

/-- The character at a place is the first of what is left from there on. -/
theorem drop_cons {text rest : Text} {place : Nat} {c : Char} (here : text.drop place = c :: rest) :
    text[place]? = some c ∧ text.drop (place + 1) = rest := by
  constructor
  · rw [← List.head?_drop, here, List.head?_cons]
  · rw [← List.tail_drop, here, List.tail_cons]

end Text

end StackTemplate
