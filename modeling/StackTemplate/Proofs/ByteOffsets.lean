import StackTemplate.Text
import Mathlib.Data.List.TakeWhile

/-! Text addressed by the bytes of its UTF-8. A slice between two byte offsets is defined
only where both stand between characters, and a byte below 128 always is a character by
itself, so that a search for such characters may go by bytes. -/
namespace StackTemplate

/-- Subtraction that is undefined below zero. -/
def minus? (large small : Nat) : Option Nat :=
  if small ≤ large then some (large - small) else none

@[simp] theorem minus?_add (more small : Nat) : minus? (more + small) small = some more := by
  simp [minus?]

theorem minus?_of_le {large small : Nat} (le : small ≤ large) :
    minus? large small = some (large - small) :=
  if_pos le

theorem minus?_lt {large small left : Nat} (positive : 0 < small) (taken : minus? large small = some left) :
    left < large := by
  unfold minus? at taken
  split at taken
  · cases taken
    omega
  · cases taken

namespace Text

/-- The bytes of the text in UTF-8. -/
def bytes (text : Text) : List UInt8 :=
  text.flatMap String.utf8EncodeChar

/-- The text cut in two at a byte offset, unless the offset lies inside a character or
past the end. -/
def cut? (offset : Nat) : Text → Option (Text × Text)
  | [] => if offset = 0 then some ([], []) else none
  | c :: text =>
    if offset = 0 then some ([], c :: text)
    else if c.utf8Size ≤ offset then
      (cut? (offset - c.utf8Size) text).map fun (front, back) => (c :: front, back)
    else none

/-- The text between two byte offsets. -/
def slice? (text : Text) (start finish : Nat) : Option Text := do
  let (front, _) ← cut? finish text
  let (_, piece) ← cut? start front
  some piece

/-- The byte offset of the first character that passes a test. -/
def offsetOf? (test : Char → Bool) : Text → Option Nat
  | [] => none
  | c :: text => if test c then some 0 else (offsetOf? test text).map (c.utf8Size + ·)

/-- Byte offsets at which the text can be cut. -/
def IsBoundary (text : Text) (offset : Nat) : Prop :=
  ∃ front back, text = front ++ back ∧ byteLength front = offset

theorem byteLength_eq_zero {text : Text} : byteLength text = 0 ↔ text = [] := by
  cases text with
  | nil => simp
  | cons c text =>
    have wide := c.utf8Size_pos
    exact iff_of_false (by rw [byteLength_cons]; omega) (List.cons_ne_nil c text)

theorem byteLength_cons_ne_zero (c : Char) (text : Text) : byteLength (c :: text) ≠ 0 :=
  fun none => List.cons_ne_nil c text (byteLength_eq_zero.mp none)

/-- What is trimmed off the front of a text is as long as its blanks there. -/
theorem minus?_trimStart (text : Text) :
    minus? (byteLength text) (byteLength (trimStart text)) = some (byteLength (leadingBlanks text)) := by
  have whole : leadingBlanks text ++ trimStart text = text := List.takeWhile_append_dropWhile
  have length := congrArg byteLength whole
  rw [byteLength_append] at length
  rw [← length, minus?_add]

theorem cut?_append (front back : Text) : cut? (byteLength front) (front ++ back) = some (front, back) := by
  induction front with
  | nil => cases back <;> simp [cut?]
  | cons c front ih =>
    rw [List.cons_append, cut?, if_neg (byteLength_cons_ne_zero c front)]
    simp [ih]

theorem cut?_eq_some {offset : Nat} {text front back : Text} (found : cut? offset text = some (front, back)) :
    text = front ++ back ∧ byteLength front = offset := by
  induction text generalizing offset front with
  | nil =>
    simp only [cut?] at found
    split at found
    · next zero =>
      cases found
      exact ⟨rfl, zero.symm⟩
    · cases found
  | cons c text ih =>
    simp only [cut?] at found
    split at found
    · next zero =>
      cases found
      exact ⟨rfl, zero.symm⟩
    · split at found
      · next fits =>
        obtain ⟨⟨inner, _⟩, inside, same⟩ := Option.map_eq_some_iff.mp found
        cases same
        obtain ⟨whole, length⟩ := ih inside
        exact ⟨by rw [whole, List.cons_append], by rw [byteLength_cons, length]; omega⟩
      · cases found

/-- Text in front moves a cut by its length. -/
theorem cut?_append_left (front text : Text) (offset : Nat) :
    cut? (byteLength front + offset) (front ++ text) =
      (cut? offset text).map fun (taken, rest) => (front ++ taken, rest) := by
  induction front with
  | nil => simp
  | cons c front ih =>
    have wide := c.utf8Size_pos
    have onward : c.utf8Size + byteLength front + offset - c.utf8Size = byteLength front + offset := by
      omega
    rw [List.cons_append, cut?, byteLength_cons, if_neg (by omega), if_pos (by omega), onward, ih,
      Option.map_map]
    rfl

/-- A slice is the piece of the text that begins and ends at the two offsets. -/
theorem slice?_eq_some_iff {text piece : Text} {start finish : Nat} :
    slice? text start finish = some piece ↔
      ∃ front back, text = front ++ (piece ++ back) ∧ byteLength front = start ∧
        start + byteLength piece = finish := by
  constructor
  · intro sliced
    obtain ⟨⟨most, back⟩, ends, sliced⟩ := Option.bind_eq_some_iff.mp sliced
    obtain ⟨⟨front, _⟩, starts, same⟩ := Option.bind_eq_some_iff.mp sliced
    cases same
    obtain ⟨rfl, rfl⟩ := cut?_eq_some ends
    obtain ⟨rfl, rfl⟩ := cut?_eq_some starts
    exact ⟨front, back, by rw [List.append_assoc], rfl, by rw [byteLength_append]⟩
  · rintro ⟨front, back, rfl, rfl, rfl⟩
    rw [slice?, ← List.append_assoc, ← byteLength_append, cut?_append]
    dsimp only [Option.bind_eq_bind, Option.bind_some]
    rw [cut?_append]
    rfl

/-- A slice is defined exactly where its offsets are in order, within the text and
between characters. -/
theorem isSome_slice?_iff {text : Text} {start finish : Nat} :
    (slice? text start finish).isSome ↔
      start ≤ finish ∧ finish ≤ byteLength text ∧ IsBoundary text start ∧ IsBoundary text finish := by
  rw [Option.isSome_iff_exists]
  simp only [slice?_eq_some_iff]
  constructor
  · rintro ⟨piece, front, back, rfl, rfl, rfl⟩
    have ends : IsBoundary (front ++ (piece ++ back)) (byteLength front + byteLength piece) :=
      ⟨front ++ piece, back, by rw [List.append_assoc], by rw [byteLength_append]⟩
    exact ⟨by omega, by simp only [byteLength_append]; omega, ⟨front, _, rfl, rfl⟩, ends⟩
  · rintro ⟨ordered, -, ⟨front, rest, rfl, rfl⟩, most, back, whole, rfl⟩
    obtain ⟨piece, rfl, rfl⟩ | ⟨piece, rfl, rfl⟩ := List.append_eq_append_iff.mp whole
    · exact ⟨piece, front, back, rfl, rfl, by rw [byteLength_append]⟩
    · -- The slice would run backwards, unless nothing lies between its ends.
      have nothing : byteLength piece = 0 := by
        rw [byteLength_append] at ordered
        omega
      exact ⟨[], most ++ piece, rest, rfl, rfl, by simp [nothing]⟩

theorem slice?_of_append {text front piece back : Text} {start finish : Nat}
    (whole : text = front ++ (piece ++ back)) (starts : start = byteLength front)
    (ends : finish = byteLength front + byteLength piece) : slice? text start finish = some piece :=
  slice?_eq_some_iff.mpr ⟨front, back, whole, starts.symm, by rw [starts, ends]⟩

/-- The end of a text, from a boundary on. -/
theorem slice?_end {text front back : Text} {start : Nat} (whole : text = front ++ back)
    (starts : start = byteLength front) : slice? text start (byteLength text) = some back := by
  subst whole starts
  exact slice?_eq_some_iff.mpr ⟨front, [], by simp, rfl, by simp⟩

/-- The text up to the first character that passes a test, then that character. -/
theorem offsetOf?_eq (test : Char → Bool) (text : Text) :
    offsetOf? test text =
      if text.any test then some (byteLength (text.takeWhile fun c => !test c)) else none := by
  induction text with
  | nil => rfl
  | cons c text ih =>
    rw [offsetOf?, ih]
    cases passes : test c with
    | true => simp [passes]
    | false => by_cases later : text.any test <;> simp [passes, later]

/-- A character is found at a boundary. -/
theorem isBoundary_offsetOf? {test : Char → Bool} {text : Text} {offset : Nat}
    (found : offsetOf? test text = some offset) : IsBoundary text offset := by
  rw [offsetOf?_eq] at found
  split at found
  · cases found
    exact ⟨_, _, List.takeWhile_append_dropWhile.symm, rfl⟩
  · cases found

@[simp] theorem bytes_nil : bytes [] = [] := rfl

@[simp] theorem bytes_cons (c : Char) (text : Text) :
    bytes (c :: text) = String.utf8EncodeChar c ++ bytes text := by
  simp [bytes]

@[simp] theorem bytes_append (first second : Text) : bytes (first ++ second) = bytes first ++ bytes second := by
  simp [bytes]

@[simp] theorem length_bytes (text : Text) : (bytes text).length = byteLength text := by
  induction text with
  | nil => rfl
  | cons c text ih => simp [ih]

private theorem toNat_ofUInt8 (b : UInt8) : (Char.ofUInt8 b).toNat = b.toNat :=
  UInt8.toNat_toUInt32 b

/-- A character is the one byte with its code, or several bytes that are no code of a
character of one byte. -/
theorem utf8EncodeChar_cases (c : Char) :
    (∃ b, String.utf8EncodeChar c = [b] ∧ Char.ofUInt8 b = c ∧ c.utf8Size = 1) ∨
      (128 ≤ c.toNat ∧ ∀ b ∈ String.utf8EncodeChar c, 128 ≤ (Char.ofUInt8 b).toNat) := by
  have code : c.val.toNat = c.toNat := rfl
  by_cases narrow : c.toNat ≤ 127
  · refine .inl ⟨UInt8.ofNat c.toNat, by simp [String.utf8EncodeChar, narrow, code], ?_, ?_⟩
    · rw [← Char.toNat_inj, toNat_ofUInt8, UInt8.toNat_ofNat']
      omega
    · rw [Char.utf8Size_eq_one_iff, UInt32.le_iff_toNat_le]
      exact narrow
  · refine .inr ⟨by omega, fun b member => ?_⟩
    have high {n : Nat} (least : 128 ≤ n) (most : n < 256) : 128 ≤ (UInt8.ofNat n).toNat := by
      rw [UInt8.toNat_ofNat']
      omega
    rw [toNat_ofUInt8]
    simp only [String.utf8EncodeChar, code, narrow, ↓reduceIte] at member
    split at member
    · simp only [List.mem_cons, List.not_mem_nil, or_false] at member
      rcases member with rfl | rfl <;> exact high (by omega) (by omega)
    · split at member
      · simp only [List.mem_cons, List.not_mem_nil, or_false] at member
        rcases member with rfl | rfl | rfl <;> exact high (by omega) (by omega)
      · simp only [List.mem_cons, List.not_mem_nil, or_false] at member
        rcases member with rfl | rfl | rfl | rfl <;> exact high (by omega) (by omega)

theorem utf8EncodeChar_narrow {c : Char} (narrow : c.toNat < 128) :
    ∃ b, String.utf8EncodeChar c = [b] ∧ Char.ofUInt8 b = c ∧ c.utf8Size = 1 := by
  obtain single | ⟨wide, -⟩ := utf8EncodeChar_cases c
  · exact single
  · omega

theorem utf8Size_narrow {c : Char} (narrow : c.toNat < 128) : c.utf8Size = 1 := by
  obtain ⟨b, -, -, size⟩ := utf8EncodeChar_narrow narrow
  exact size

/-- A byte below 128 at the front of a text is a character by itself. -/
theorem bytes_eq_cons {text : Text} {b : UInt8} {rest : List UInt8} (spelled : bytes text = b :: rest)
    (narrow : (Char.ofUInt8 b).toNat < 128) :
    ∃ more, text = Char.ofUInt8 b :: more ∧ rest = bytes more := by
  cases text with
  | nil => cases spelled
  | cons c text =>
    rw [bytes_cons] at spelled
    obtain ⟨first, single, same, -⟩ | ⟨-, high⟩ := utf8EncodeChar_cases c
    · rw [single] at spelled
      cases spelled
      exact ⟨text, by rw [same], rfl⟩
    · cases encoded : String.utf8EncodeChar c with
      | nil => exact absurd encoded (by simp)
      | cons first more =>
        rw [encoded] at spelled
        cases spelled
        exact absurd (high b (by simp [encoded])) (by omega)

theorem toUInt8_ofUInt8 (b : UInt8) : (Char.ofUInt8 b).toUInt8 = b :=
  UInt8.toUInt8_toUInt32 b

/-- A character of one byte is known by that byte. -/
theorem ofUInt8_eq_iff {c : Char} (narrow : c.toNat < 128) {b : UInt8} :
    Char.ofUInt8 b = c ↔ b = c.toUInt8 := by
  obtain ⟨own, -, rfl, -⟩ := utf8EncodeChar_narrow narrow
  rw [toUInt8_ofUInt8]
  constructor
  · intro same
    rw [← toUInt8_ofUInt8 b, same, toUInt8_ofUInt8]
  · rintro rfl
    rfl

theorem bytes_cons_narrow {c : Char} (narrow : c.toNat < 128) (text : Text) :
    bytes (c :: text) = c.toUInt8 :: bytes text := by
  obtain ⟨b, single, same, -⟩ := utf8EncodeChar_narrow narrow
  rw [bytes_cons, single, (ofUInt8_eq_iff narrow).mp same, List.singleton_append]

/-- A byte below 128 is a character by itself, wherever in the text it stands. -/
theorem exists_of_getElem?_bytes {text : Text} {c : Char} (narrow : c.toNat < 128) {offset : Nat}
    (here : (bytes text)[offset]? = some c.toUInt8) :
    ∃ front back, text = front ++ c :: back ∧ byteLength front = offset := by
  induction text generalizing offset with
  | nil => cases here
  | cons d text ih =>
    rw [bytes_cons, List.getElem?_append, String.length_utf8EncodeChar] at here
    split at here
    · have member := List.mem_of_getElem? here
      obtain ⟨b, single, same, size⟩ | ⟨-, high⟩ := utf8EncodeChar_cases d
      · rw [single, List.mem_singleton] at member
        rw [← (ofUInt8_eq_iff narrow).mpr member.symm, same]
        exact ⟨[], text, rfl, by rw [byteLength_nil]; omega⟩
      · have wide := high _ member
        rw [(ofUInt8_eq_iff narrow).mpr rfl] at wide
        omega
    · obtain ⟨front, back, rfl, length⟩ := ih here
      exact ⟨d :: front, back, rfl, by rw [byteLength_cons, length]; omega⟩

theorem ne_of_wide {c narrow : Char} (wide : 128 ≤ c.toNat) (short : narrow.toNat < 128) : c ≠ narrow := by
  rintro rfl
  omega

/-- A test that only characters of one byte pass. -/
def Narrow (test : Char → Bool) : Prop :=
  ∀ c, test c = true → c.toNat < 128

/-- Bytes pass such a test as far as characters do. -/
theorem takeWhile_bytes {test : Char → Bool} (narrow : Narrow test) (text : Text) :
    (bytes text).takeWhile (fun b => test (Char.ofUInt8 b)) = bytes (text.takeWhile test) := by
  induction text with
  | nil => rfl
  | cons c text ih =>
    obtain ⟨b, single, same, -⟩ | ⟨wide, high⟩ := utf8EncodeChar_cases c
    · cases passes : test c <;> simp [single, same, passes, ih]
    · have fails {d : Char} (wide : 128 ≤ d.toNat) : test d = false := by
        cases passes : test d with
        | false => rfl
        | true => exact absurd (narrow d passes) (by omega)
      have stops : (String.utf8EncodeChar c ++ bytes text).takeWhile
          (fun b => test (Char.ofUInt8 b)) = [] := by
        cases encoded : String.utf8EncodeChar c with
        | nil => exact absurd encoded (by simp)
        | cons b more => simp [fails (high b (by simp [encoded]))]
      simp [fails wide, stops]

/-- The byte at a boundary is the first of the character there. -/
theorem getElem?_bytes (front : Text) (c : Char) (back : Text) :
    (bytes (front ++ c :: back))[byteLength front]? = (String.utf8EncodeChar c).head? := by
  cases encoded : String.utf8EncodeChar c with
  | nil => exact absurd encoded (by simp)
  | cons b more => simp [encoded]

theorem drop_bytes (front back : Text) : (bytes (front ++ back)).drop (byteLength front) = bytes back := by
  simp [← length_bytes]

end Text

end StackTemplate
