import StackTemplate.Proofs.DirectiveShape

/-! The text that a directive takes. An expression takes a name and what belongs to
it, as it is or as the body of a pair of braces; a lookup has its keys between brackets
that match, and what is said of the keys is said of the pieces between the commas. -/
namespace StackTemplate

namespace Directive

/-- What is known of keys is known of the pieces between the commas, trimmed. -/
theorem forall₂_pieces {related : Text → α → Prop} {pieces : List Text} {found : List α} {start : Nat}
    (keyed : List.Forall₂ (fun key => related key.text) (keysFrom start pieces) found) :
    List.Forall₂ (fun piece => related (Text.trim piece)) pieces found := by
  induction pieces generalizing start found with
  | nil =>
    cases keyed
    exact .nil
  | cons piece pieces ih =>
    cases keyed with
    | cons here later => exact .cons here (ih later)

/-- The text that an expression takes. Without braces a path only has the characters
of a path. -/
inductive Spells : Mode → Shape → Text → Prop where
  | reference {mode : Mode} {name : Text} (named : IsName name) : Spells mode (.reference name) name
  | attributeOf {mode : Mode} {name path : Text} (named : IsName name)
      (plain : mode = .greedy → ∀ c ∈ path, isPathChar c = true) :
      Spells mode (.attributeOf name path) (name ++ '.' :: path)
  | lookup {mode : Mode} {name inside : Text} (named : IsName name) (closed : Balanced .bracket inside)
      (full : ∀ key ∈ splitKeys inside, key.text ≠ []) :
      Spells mode (.lookup name (splitKeys inside)) (name ++ '[' :: inside ++ [']'])

private theorem findLookup_spells {mode : Mode} {name inner taken rest : Text} {shape : Shape}
    (named : IsName name) (found : findLookup name inner = .expression shape taken rest) :
    Spells mode shape taken := by
  unfold findLookup at found
  split at found
  · cases found
  · next inside after closed =>
    dsimp only at found
    split at found
    · cases found
      exact .reference named
    · next noneBlank =>
      cases found
      exact .lookup named (balanced_enclosed closed) (by simpa using noneBlank)

private theorem findAttribute_spells {mode : Mode} {name tail taken rest : Text} {shape : Shape}
    (named : IsName name) (found : findAttribute mode name tail = .expression shape taken rest) :
    Spells mode shape taken := by
  cases mode with
  | greedy =>
    dsimp only [findAttribute] at found
    split at found
    · cases found
      exact .reference named
    · cases found
      exact .attributeOf named fun _ c member => pathChar_of_mem_splitPath member
  | delimited =>
    dsimp only [findAttribute] at found
    split at found
    · cases found
      exact .reference named
    · cases found
      exact .attributeOf named Mode.noConfusion

/-- An expression that is found is spelled by the text it takes. -/
theorem findExpression_spells {mode : Mode} {text taken rest : Text} {shape : Shape}
    (found : findExpression mode text = .expression shape taken rest) : Spells mode shape taken := by
  unfold findExpression at found
  generalize split : splitName text = cut at found
  obtain ⟨name, after⟩ := cut
  dsimp only at found
  split at found
  · cases found
  · next full =>
    have named := isName_of_splitName split (by simpa using full)
    split at found
    · exact findLookup_spells named found
    · exact findAttribute_spells named found
    · cases found
      exact .reference named

/-- The text that a directive takes after its `@`. An expression takes its own, or
braces around it. -/
inductive Takes : Directive → Text → Prop where
  | escape : Takes .escape ['@']
  | plain : Takes .plain []
  | inclusion (path extent : Text) : Takes (.inclusion path) extent
  | greedy {shape : Shape} {taken : Text} (lead : Nat) (spells : Spells .greedy shape taken) :
      Takes (.expression lead shape) taken
  | delimited {shape : Shape} {raw : Text} (lead : Nat) (closed : Balanced .brace raw)
      (spells : Spells .delimited shape (Text.trim raw)) :
      Takes (.expression lead shape) ('{' :: raw ++ ['}'])
  | rejected (lead : Nat) (shape : Shape) : Takes (.rejected lead shape) []
  | unclosed (delimiter : Delimiter) (offset : Nat) : Takes (.unclosed delimiter offset) []

private theorem takes_readDelimited (inner : Text) :
    Takes (readDelimited inner).directive (readDelimited inner).extent := by
  unfold readDelimited
  split
  · exact .unclosed .brace 0
  · next raw rest closed =>
    dsimp only
    split
    · exact .inclusion _ _
    · split
      · exact .plain
      · exact .unclosed .bracket _
      · next shape taken found =>
        have whole := (findExpression_fits found).1
        rw [List.append_nil] at whole
        exact .delimited _ (balanced_enclosed closed) (whole ▸ findExpression_spells found)
      · exact .rejected _ _

private theorem takes_readGreedy (text : Text) :
    Takes (readGreedy text).directive (readGreedy text).extent := by
  unfold readGreedy
  split
  · exact .inclusion _ _
  · split
    · exact .plain
    · exact .unclosed .bracket _
    · next found => exact .greedy 1 (findExpression_spells found)

/-- Every reading takes what its directive takes. -/
theorem takes_read (text : Text) : Takes (read text).directive (read text).extent := by
  unfold read
  split
  · exact .plain
  · next c rest =>
    split
    · exact .escape
    · split
      · exact takes_readDelimited rest
      · split
        · exact takes_readGreedy (c :: rest)
        · exact .plain

end Directive

end StackTemplate
