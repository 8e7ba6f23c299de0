import StackTemplate.Proofs.BalancedText
import StackTemplate.Proofs.DirectiveLookahead

/-! What can be read after an `@`. The expression of a directive is found in one
stretch of the text, the body of a pair of braces or everything that follows. Its
name is a name by itself, an attribute has a path that could stand in braces, and
a lookup has at least one key, each a stretch of the text again. -/
namespace StackTemplate

namespace Directive

/-- What a name may go on with after its first character. -/
inductive NameTail : Text → Prop where
  | nil : NameTail []
  | char {c : Char} {rest : Text} (nameChar : isNameChar c = true) (later : NameTail rest) :
      NameTail (c :: rest)
  | joined {c : Char} {rest : Text} (nameChar : isNameChar c = true) (later : NameTail rest) :
      NameTail (':' :: ':' :: c :: rest)

theorem nameTail_splitNameTail (text : Text) : NameTail (splitNameTail text).1 := by
  fun_induction splitNameTail text with
  | case1 c rest goesOn tail after split ih =>
    rw [split] at ih
    exact .joined goesOn ih
  | case2 c rest stop => exact .nil
  | case3 c rest notColons goesOn tail after split ih =>
    rw [split] at ih
    exact .char goesOn ih
  | case4 c rest notColons stop => exact .nil
  | case5 => exact .nil

namespace NameTail

/-- A continuation is cut off whole. -/
theorem splitNameTail {text : Text} (tail : NameTail text) : splitNameTail text = (text, []) := by
  induction tail with
  | nil => rfl
  | @char c rest nameChar later ih =>
    have distinct : c ≠ ':' := by
      rintro rfl
      cases nameChar
    rw [splitNameTail.eq_2 c rest fun _ _ same => absurd same distinct, if_pos nameChar, ih]
  | joined nameChar later ih => rw [Directive.splitNameTail, if_pos nameChar, ih]

theorem append {text more : Text} (tail : NameTail text) (chars : ∀ c ∈ more, isNameChar c = true) :
    NameTail (text ++ more) := by
  induction tail with
  | nil =>
    induction more with
    | nil => exact .nil
    | cons c more ih =>
      obtain ⟨here, later⟩ := List.forall_mem_cons.mp chars
      exact .char here (ih later)
  | char nameChar later ih => exact .char nameChar ih
  | joined nameChar later ih => exact .joined nameChar ih

end NameTail

/-- Names are a letter or `_` and a continuation. -/
theorem isName_iff {text : Text} :
    IsName text ↔ ∃ c tail, text = c :: tail ∧ isNameStart c = true ∧ NameTail tail := by
  constructor
  · rintro ⟨full, split⟩
    cases text with
    | nil => exact absurd rfl full
    | cons c tail =>
      by_cases start : isNameStart c = true
      · have cut := nameTail_splitNameTail tail
        simp only [splitName, start, ↓reduceIte, Prod.mk.injEq, List.cons.injEq, true_and] at split
        rw [split.1] at cut
        exact ⟨c, tail, rfl, start, cut⟩
      · simp [splitName, start] at split
  · rintro ⟨c, tail, rfl, start, cut⟩
    refine ⟨List.cons_ne_nil _ _, ?_⟩
    rw [splitName, if_pos start, cut.splitNameTail]

/-- What is cut off the front of a text as its name is a name. -/
theorem isName_of_splitName {text name rest : Text} (split : splitName text = (name, rest))
    (full : name ≠ []) : IsName name := by
  cases text with
  | nil =>
    cases split
    exact absurd rfl full
  | cons c text =>
    by_cases start : isNameStart c = true
    · have cut := nameTail_splitNameTail text
      rw [splitName, if_pos start] at split
      cases split
      exact isName_iff.mpr ⟨c, _, rfl, start, cut⟩
    · rw [splitName, if_neg start] at split
      cases split
      exact absurd rfl full

/-- A name with further name characters is a name. -/
theorem IsName.append {name more : Text} (named : IsName name)
    (chars : ∀ c ∈ more, isNameChar c = true) : IsName (name ++ more) := by
  obtain ⟨c, tail, rfl, start, cut⟩ := isName_iff.mp named
  exact isName_iff.mpr ⟨c, tail ++ more, rfl, start, cut.append chars⟩

theorem NameTail.chars {tail : Text} (cut : NameTail tail) :
    ∀ c ∈ tail, isNameChar c = true ∨ c = ':' := by
  induction cut with
  | nil => exact fun c member => absurd member List.not_mem_nil
  | char nameChar later ih => exact List.forall_mem_cons.mpr ⟨.inl nameChar, ih⟩
  | joined nameChar later ih =>
    refine List.forall_mem_cons.mpr ⟨.inr rfl, List.forall_mem_cons.mpr ⟨.inr rfl, ?_⟩⟩
    exact List.forall_mem_cons.mpr ⟨.inl nameChar, ih⟩

theorem IsName.chars {name : Text} (named : IsName name) :
    ∀ c ∈ name, isNameChar c = true ∨ c = ':' := by
  obtain ⟨c, tail, rfl, start, cut⟩ := isName_iff.mp named
  exact List.forall_mem_cons.mpr ⟨.inl (isNameStart_nameChar start), cut.chars⟩

/-- The characters of names are no delimiters. -/
theorem nested_of_nameChars {text : Text} (chars : ∀ c ∈ text, isNameChar c = true ∨ c = ':') :
    Nested 0 text := by
  have excluded : ∀ c ∈ ['[', ']', '{', '}', ','], ¬(isNameChar c = true ∨ c = ':') := by
    simp [isNameChar]
  refine .of_free (fun c member delimits => ?_) fun _ member => ?_
  · exact excluded c (List.mem_append_left [','] delimits) (chars c member)
  · exact excluded ',' (by simp) (chars ',' member)

theorem IsName.nested {name : Text} (named : IsName name) : Nested 0 name :=
  nested_of_nameChars named.chars

/-- Texts that a delimited attribute can have as its path. -/
structure ReadablePath (path : Text) : Prop where
  full : path ≠ []
  last : ∀ c ∈ path.getLast?, Text.isBlank c = false
  balanced : Balanced .brace path

end Directive

open Directive

/-- Expressions that can be read off a text. -/
inductive Shape.Readable : Shape → Prop where
  | reference {name : Text} (named : IsName name) : Readable (.reference name)
  | attributeOf {name path : Text} (named : IsName name) (led : ReadablePath path) :
      Readable (.attributeOf name path)
  | lookup {name : Text} {keys : List Key} (named : IsName name) (keyed : keys ≠ []) :
      Readable (.lookup name keys)

namespace Directive

/-- The stretch of the text after an `@` in which its expression is looked for. -/
inductive Holds (text : Text) : Mode → Text → Prop where
  | delimited {inner raw rest : Text} (opens : text = '{' :: inner)
      (closed : enclosed .brace inner = some (raw, rest)) : Holds text .delimited (Text.trim raw)
  | greedy : Holds text .greedy text

/-- What the text after an `@` decides, and by which stretch of it. -/
inductive Decides (text : Text) : Directive → Prop where
  | escape : Decides text .escape
  | plain : Decides text .plain
  | openBrace {inner : Text} (opens : text = '{' :: inner) (notClosed : enclosed .brace inner = none) :
      Decides text (.unclosed .brace 0)
  | delimitedFile {body path : Text} (holds : Holds text .delimited body)
      (named : delimitedPath? body = some path) : Decides text (.inclusion path)
  | greedyFile {path : Text} (named : greedyPath? text = some path) : Decides text (.inclusion path)
  | openBracket {mode : Mode} {body : Text} {lead offset : Nat} (holds : Holds text mode body)
      (found : findExpression mode body = .unclosed offset) :
      Decides text (.unclosed .bracket (lead + offset))
  | expression {mode : Mode} {body taken after : Text} {lead : Nat} {shape : Shape}
      (holds : Holds text mode body) (found : findExpression mode body = .expression shape taken after) :
      Decides text (.expression lead shape)
  | rejected {mode : Mode} {body taken after : Text} {lead : Nat} {shape : Shape}
      (holds : Holds text mode body) (found : findExpression mode body = .expression shape taken after) :
      Decides text (.rejected lead shape)

private theorem decides_readDelimited (inner : Text) :
    Decides ('{' :: inner) (readDelimited inner).directive := by
  unfold readDelimited
  split
  · next notClosed => exact .openBrace rfl notClosed
  · next raw rest closed =>
    have holds : Holds ('{' :: inner) .delimited (Text.trim raw) := .delimited rfl closed
    dsimp only
    split
    · next path named => exact .delimitedFile holds named
    · split
      · exact .plain
      · next offset found => exact .openBracket holds found
      · next shape taken found => exact .expression holds found
      · next shape taken c tail found => exact .rejected holds found

private theorem decides_readGreedy (text : Text) : Decides text (readGreedy text).directive := by
  unfold readGreedy
  split
  · next path named => exact .greedyFile named
  · split
    · exact .plain
    · next offset found => exact .openBracket .greedy found
    · next shape taken after found => exact .expression .greedy found

/-- Every reading is one of these decisions. -/
theorem decides_read (text : Text) : Decides text (read text).directive := by
  unfold read
  split
  · exact .plain
  · next c rest =>
    split
    · exact .escape
    · split
      · next brace =>
        subst brace
        exact decides_readDelimited rest
      · split
        · exact decides_readGreedy (c :: rest)
        · exact .plain

/-- The stretch is a part of the text. -/
theorem Holds.isInfix {text body : Text} {mode : Mode} (holds : Holds text mode body) : body <:+: text := by
  cases holds with
  | greedy => exact List.infix_rfl
  | @delimited inner raw rest opens closed =>
    have inside : raw <:+: '{' :: raw ++ '}' :: rest := ⟨['{'], '}' :: rest, by simp⟩
    rw [opens, enclosed_append closed]
    exact (Text.trim_isInfix raw).trans inside

/-- A delimited stretch has its braces balanced and does not end in a blank. -/
theorem Holds.body_fits {text body : Text} (holds : Holds text .delimited body) :
    Balanced .brace body ∧ ∀ c ∈ body.getLast?, Text.isBlank c = false := by
  cases holds with
  | @delimited inner raw rest opens closed =>
    obtain ⟨trail, whole, leadBlank, trailBlank⟩ := Text.exists_padding raw
    have balanced := balanced_enclosed closed
    have front : Balanced .brace (Text.leadingBlanks raw) := (Nested.of_blank leadBlank).balanced _
    have back : Balanced .brace trail := (Nested.of_blank trailBlank).balanced _
    rw [whole, List.append_assoc] at balanced
    exact ⟨back.of_append_left (front.of_append balanced), Text.last_trim raw⟩

/-- A key is one of the pieces between the commas, without the blanks around it. -/
theorem exists_piece {inside : Text} {key : Key} (member : key ∈ splitKeys inside) :
    ∃ piece ∈ cutAtCommas 0 inside, key.text = Text.trim piece := by
  have listed : key.text ∈ (splitKeys inside).map Key.text := List.mem_map_of_mem member
  rw [texts_splitKeys] at listed
  obtain ⟨piece, cut, same⟩ := List.mem_map.mp listed
  exact ⟨piece, cut, same.symm⟩

private theorem infix_intercalate {piece : Text} {pieces : List Text} (member : piece ∈ pieces) :
    piece <:+: [','].intercalate pieces := by
  induction pieces with
  | nil => cases member
  | cons first pieces ih =>
    cases pieces with
    | nil => simp_all
    | cons second pieces =>
      rw [List.intercalate_cons_cons]
      rcases List.mem_cons.mp member with rfl | later
      · rw [List.append_assoc]
        exact List.infix_append' [] _ _
      · exact (ih later).trans (List.suffix_append _ _).isInfix

/-- A key is a part of the text between the brackets. -/
theorem key_isInfix {inside : Text} {key : Key} (member : key ∈ splitKeys inside) :
    key.text <:+: inside := by
  obtain ⟨piece, cut, same⟩ := exists_piece member
  have part := infix_intercalate cut
  rw [intercalate_cutAtCommas] at part
  rw [same]
  exact (Text.trim_isInfix piece).trans part

theorem splitKeys_ne_nil (inside : Text) : splitKeys inside ≠ [] := by
  unfold splitKeys
  cases cut : cutAtCommas 0 inside with
  | nil => exact absurd cut (cutAtCommas_ne_nil 0 inside)
  | cons piece pieces => exact List.cons_ne_nil _ _

private theorem findLookup_readable {name inner taken after : Text} {shape : Shape}
    (named : IsName name) (found : findLookup name inner = .expression shape taken after) :
    shape.Readable := by
  unfold findLookup at found
  split at found
  · cases found
  · next inside rest closed =>
    dsimp only at found
    split at found
    · cases found
      exact .reference named
    · cases found
      exact .lookup named (splitKeys_ne_nil inside)

theorem pathChar_of_mem_splitPath {tail : Text} {c : Char} (member : c ∈ (splitPath tail).1) :
    isPathChar c = true := by
  have reached : c ∈ (tail.takeWhile isPathChar).reverse :=
    (List.dropWhile_suffix _).subset (List.mem_reverse.mp member)
  exact List.all_eq_true.mp List.all_takeWhile c (List.mem_reverse.mp reached)

private theorem splitPath_readable {tail : Text} (full : (splitPath tail).1 ≠ []) :
    ReadablePath (splitPath tail).1 := by
  refine ⟨full, fun c last => ?_, balanced_of_free fun c member => ?_⟩
  · rw [← Bool.not_eq_true]
    intro blank
    have pathChar := pathChar_of_mem_splitPath (List.mem_of_getLast? last)
    cases pathChar.symm.trans (isBlank_not_pathChar blank)
  · have pathChar := pathChar_of_mem_splitPath member
    constructor
    all_goals
      rintro rfl
      cases pathChar

private theorem findAttribute_readable {mode : Mode} {name tail taken after : Text} {shape : Shape}
    (named : IsName name)
    (fits : mode = .delimited → Balanced .brace (name ++ '.' :: tail) ∧
      ∀ c ∈ (name ++ '.' :: tail).getLast?, Text.isBlank c = false)
    (found : findAttribute mode name tail = .expression shape taken after) : shape.Readable := by
  cases mode with
  | greedy =>
    dsimp only [findAttribute] at found
    split at found
    · cases found
      exact .reference named
    · next full =>
      cases found
      exact .attributeOf named (splitPath_readable (by simpa using full))
  | delimited =>
    dsimp only [findAttribute] at found
    split at found
    · cases found
      exact .reference named
    · next full =>
      cases found
      have some : tail ≠ [] := by simpa using full
      obtain ⟨balanced, last⟩ := fits rfl
      have dot : Balanced .brace ['.'] := by decide
      refine .attributeOf named ⟨some, fun c isLast => last c ?_, ?_⟩
      · obtain ⟨front, d, rfl⟩ := (List.eq_nil_or_concat tail).resolve_left some
        simpa [List.getLast?_append, List.getLast?_cons] using isLast
      · exact dot.of_append ((named.nested.balanced .brace).of_append balanced)

/-- An expression found in a text is readable. In braces the path runs up to the
end of the text, which has to be fit for that. -/
theorem findExpression_readable {mode : Mode} {text taken after : Text} {shape : Shape}
    (fits : mode = .delimited → Balanced .brace text ∧ ∀ c ∈ text.getLast?, Text.isBlank c = false)
    (found : findExpression mode text = .expression shape taken after) : shape.Readable := by
  have whole := splitName_append text
  unfold findExpression at found
  generalize split : splitName text = cut at whole found
  obtain ⟨name, rest⟩ := cut
  dsimp only at whole found
  split at found
  · cases found
  · next full =>
    have named := isName_of_splitName split (by simpa using full)
    split at found
    · exact findLookup_readable named found
    · exact findAttribute_readable named (by rwa [whole]) found
    · cases found
      exact .reference named

theorem Holds.readable {text body taken after : Text} {mode : Mode} {shape : Shape}
    (holds : Holds text mode body) (found : findExpression mode body = .expression shape taken after) :
    shape.Readable := by
  apply findExpression_readable ?_ found
  rintro rfl
  exact holds.body_fits

/-- An expression read off a text was found in the stretch that holds it. -/
theorem exists_found {text : Text} {shape : Shape}
    (shaped : (read text).directive.shape? = some shape) :
    ∃ mode body taken after, Holds text mode body ∧
      findExpression mode body = .expression shape taken after := by
  have decides := decides_read text
  generalize (read text).directive = directive at shaped decides
  cases decides with
  | expression holds found =>
    cases shaped
    exact ⟨_, _, _, _, holds, found⟩
  | rejected holds found =>
    cases shaped
    exact ⟨_, _, _, _, holds, found⟩
  | escape => cases shaped
  | plain => cases shaped
  | openBrace opens notClosed => cases shaped
  | delimitedFile holds named => cases shaped
  | greedyFile named => cases shaped
  | openBracket holds found => cases shaped

/-- Whatever the text after an `@` is, an expression read off it is readable. -/
theorem read_readable {text : Text} {shape : Shape}
    (shaped : (read text).directive.shape? = some shape) : shape.Readable := by
  obtain ⟨mode, body, taken, after, holds, found⟩ := exists_found shaped
  exact holds.readable found

end Directive

end StackTemplate
