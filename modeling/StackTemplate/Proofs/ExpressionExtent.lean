import StackTemplate.Proofs.Classification
import StackTemplate.Proofs.ExpressionGrammar

/-! How far an expression reaches. Without braces it is the longest front of the text
that is a name or a name with a path, unless a bracket follows the name. In braces it is
the whole body or nothing, and then the `@` alone is text. -/
namespace StackTemplate

namespace Directive

/-- The longest front of a text that belongs to a language, and what follows it. -/
structure LongestPrefix (language : Text → Prop) (text extent rest : Text) : Prop where
  whole : text = extent ++ rest
  belongs : language extent
  longest : ∀ other, language other → other <+: text → other <+: extent

private theorem NameTail.isPrefix {tail : Text} (cut : NameTail tail) (more : Text) :
    tail <+: (Directive.splitNameTail (tail ++ more)).1 := by
  induction cut with
  | nil => exact List.nil_prefix
  | @char c rest nameChar later ih =>
    have distinct : c ≠ ':' := by
      rintro rfl
      cases nameChar
    rw [List.cons_append, Directive.splitNameTail.eq_2 c _ fun _ _ same => absurd same distinct,
      if_pos nameChar]
    exact List.cons_prefix_cons.mpr ⟨rfl, ih⟩
  | joined nameChar later ih =>
    simp only [List.cons_append, Directive.splitNameTail, if_pos nameChar]
    simpa only [List.cons_prefix_cons, true_and] using ih

/-- The name that is cut off a text is the longest one. -/
theorem longest_name {text name after : Text} (split : splitName text = (name, after))
    (full : name ≠ []) : LongestPrefix NameWord text name after := by
  have whole := splitName_append text
  rw [split] at whole
  refine ⟨whole.symm, nameWord_iff.mpr (isName_of_splitName split full), ?_⟩
  rintro _ ⟨start, later⟩ ⟨more, rfl⟩
  rw [List.cons_append, splitName, if_pos start] at split
  cases split
  exact List.cons_prefix_cons.mpr ⟨rfl, later.isPrefix more⟩

/-- No longer path could have been cut off a text. -/
theorem longest_path {tail path : Text} (dotted : DottedPath path) (front : path <+: tail) :
    path <+: (splitPath tail).1 := by
  let dots := ((tail.takeWhile isPathChar).reverse.takeWhile (· == '.')).reverse
  have reached : path <+: tail.takeWhile isPathChar := by
    obtain ⟨more, rfl⟩ := front
    rw [List.takeWhile_append_of_pos dotted.chars]
    exact List.prefix_append _ _
  have cut : tail.takeWhile isPathChar = (splitPath tail).1 ++ dots := by
    rw [splitPath, ← List.reverse_append, List.takeWhile_append_dropWhile, List.reverse_reverse]
  rw [cut] at reached
  rcases List.prefix_or_prefix_of_prefix reached (List.prefix_append _ dots) with inside | ⟨gap, rfl⟩
  · exact inside
  · -- A longer path would end in one of the dots that were left off.
    have dotted' : gap <+: dots := (List.prefix_append_right_inj _).mp reached
    cases last : gap.getLast? with
    | none => rw [List.getLast?_eq_none_iff.mp last, List.append_nil]
    | some c =>
      have isDot : (c == '.') = true := by
        have inside : c ∈ dots := dotted'.subset (List.mem_of_getLast? last)
        exact List.all_eq_true.mp List.all_takeWhile c (List.mem_reverse.mp inside)
      exact absurd (by simpa using isDot) (dotted.last c (by rw [List.getLast?_append, last]; rfl))

/-- An expression is the longest front of the grammar if it has the whole name, and any
path that could follow the name. -/
private theorem longest_dotted {text name after extent rest : Text} {shape : Shape}
    (split : splitName text = (name, after)) (full : name ≠ []) (whole : text = extent ++ rest)
    (dotted : Dotted .greedy shape extent) (names : name <+: extent)
    (paths : ∀ tail path, after = '.' :: tail → DottedPath path → path <+: tail →
      name ++ '.' :: path <+: extent) :
    LongestPrefix (fun other => ∃ shape, Dotted .greedy shape other) text extent rest := by
  refine ⟨whole, ⟨shape, dotted⟩, ?_⟩
  rintro other ⟨_, written⟩ front
  cases written with
  | reference named => exact ((longest_name split full).longest _ named front).trans names
  | @attributeOf own path named leads =>
    obtain ⟨more, same⟩ := front
    have ownSplit : splitName text = (own, '.' :: (path ++ more)) := by
      rw [← same, List.append_assoc]
      exact (nameWord_iff.mp named).splitName_append rfl
    cases split.symm.trans ownSplit
    exact paths _ path rfl leads (List.prefix_append _ _)

/-- Unless a bracket follows its name, an expression without braces is the longest front
of the grammar. -/
theorem find_longest {text name after : Text} (split : splitName text = (name, after)) (full : name ≠ [])
    (unbracketed : after.head? ≠ some '[') :
    ∃ shape extent rest, findExpression .greedy text = .expression shape extent rest ∧
      shape.keys = [] ∧ Dotted .greedy shape extent ∧
      LongestPrefix (fun other => ∃ shape, Dotted .greedy shape other) text extent rest := by
  obtain ⟨whole, named, _⟩ := longest_name split full
  have notEmpty : name.isEmpty = false := by simpa using full
  by_cases dot : ∃ tail, after = '.' :: tail
  · obtain ⟨tail, rfl⟩ := dot
    have found : findExpression .greedy text = findAttribute .greedy name tail := by
      simp [findExpression, split, notEmpty]
    by_cases empty : (splitPath tail).1 = []
    · refine ⟨.reference name, name, '.' :: tail, by simp [found, findAttribute, empty], rfl,
        .reference named, longest_dotted split full whole (.reference named) List.prefix_rfl ?_⟩
      intro _ path same dotted front
      cases same
      exact absurd (List.prefix_nil.mp (empty ▸ longest_path dotted front)) dotted.full
    · have leads : Dotted .greedy (.attributeOf name (splitPath tail).1)
          (name ++ '.' :: (splitPath tail).1) := .attributeOf named (splitPath_dotted empty)
      have taken : text = name ++ '.' :: (splitPath tail).1 ++ (splitPath tail).2 := by
        rw [List.append_assoc, List.cons_append, splitPath_append, whole]
      refine ⟨_, _, (splitPath tail).2, by simp [found, findAttribute, empty], rfl, leads,
        longest_dotted split full taken leads (List.prefix_append _ _) ?_⟩
      intro _ path same dotted front
      cases same
      exact (List.prefix_append_right_inj _).mpr
        (List.cons_prefix_cons.mpr ⟨rfl, longest_path dotted front⟩)
  · have found : findExpression .greedy text = .expression (.reference name) name after := by
      rw [findExpression, split]
      simp only [notEmpty, Bool.false_eq_true, ↓reduceIte]
      split
      · exact absurd rfl unbracketed
      · exact absurd ⟨_, rfl⟩ dot
      · rfl
    refine ⟨_, _, _, found, rfl, .reference named,
      longest_dotted split full whole (.reference named) List.prefix_rfl ?_⟩
    intro tail path same _ _
    exact absurd ⟨tail, same⟩ dot

/-- No file is named where the scheme, if it stands there, is followed by a blank. -/
private theorem greedyPath?_eq_none {text : Text}
    (unnamed : ∀ tail, text = scheme ++ tail → StartsBlank tail) : greedyPath? text = none := by
  unfold greedyPath?
  cases found : Text.after? scheme text with
  | none => rfl
  | some tail =>
    have blank := unnamed tail (Text.after?_eq_some found)
    cases tail with
    | nil => rfl
    | cons c tail => simp [blank c rfl]

private theorem delimitedPath?_eq_none {body : Text}
    (unnamed : ∀ tail, body = scheme ++ tail → ∀ c ∈ tail, Text.isBlank c = true) :
    delimitedPath? body = none := by
  unfold delimitedPath?
  cases found : Text.after? scheme body with
  | none => rfl
  | some tail =>
    have blank := unnamed tail (Text.after?_eq_some found)
    have trimmed : Text.trim tail = [] := by
      simpa using @Text.trim_padded tail [] [] blank (by simp [Text.Tight]) (by simp)
    simp [trimmed]

end Directive

namespace Interpolation
open Directive

variable {files : Files} {options : Options} {used position : Nat}

/-- A body in braces is an expression of the grammar from end to end, or else the `@`
in front of it is text. -/
private theorem classify_body {raw rest : Text} (balanced : Balanced .brace raw)
    (unnamed : delimitedPath? (Text.trim raw) = none) {inclusions : List Inclusion}
    {events : List Event} {outcome : Outcome}
    (ran : classify files options used position ('{' :: raw ++ '}' :: rest) =
      ⟨inclusions, events, .ok outcome⟩) :
    (∃ shape keys, Written .delimited shape (Text.trim raw) ∧
      outcome = .expression (shape.build keys) ('{' :: raw ++ ['}']) rest) ∨
    (¬∃ shape, Written .delimited shape (Text.trim raw)) ∧
      outcome = .character [] ('{' :: raw ++ '}' :: rest) := by
  rw [classify_braced balanced unnamed] at ran
  obtain ⟨parsed, parsedRan, rfl⟩ := Run.map_eq_ok ran
  unfold parse at parsedRan
  cases found : findExpression .delimited (Text.trim raw) with
  | nothing =>
    rw [found] at parsedRan
    cases parsedRan
    refine .inr ⟨?_, rfl⟩
    rintro ⟨shape, written⟩
    cases found.symm.trans written.found
  | unclosed offset =>
    rw [found] at parsedRan
    cases parsedRan
  | expression shape extent tail =>
    rw [found] at parsedRan
    obtain ⟨keys, _, rfl⟩ := Run.map_eq_ok parsedRan
    cases tail with
    | nil =>
      have whole := (findExpression_fits found).1
      rw [List.append_nil] at whole
      exact .inl ⟨shape, keys, whole ▸ findExpression_written found, rfl⟩
    | cons c tail =>
      refine .inr ⟨?_, rfl⟩
      rintro ⟨shape, written⟩
      cases found.symm.trans written.found

end Interpolation

open Interpolation Directive

/-- An expression has exactly the extent its grammar gives it. A scan goes on from what
an `@` comes to. Without braces, where no file is named and no bracket follows the longest
name, that is the reference or attribute which is the longest front of the text. In braces
that match, where no file is named and no error arises, it is the body if that is of the
grammar from end to end; if not, the `@` alone is text and the scan goes on behind it. -/
theorem expression_extent (files : Files) (options : Options) (used position : Nat) :
    (∀ origin text, scan files options used origin position ('@' :: text) =
      match classify files options used position text with
      | ⟨inclusions, events, .error error⟩ => ⟨inclusions, events, .error (origin.relocate error)⟩
      | ⟨inclusions, events, .ok outcome⟩ =>
        (resume files options (used + inclusions.length) origin position outcome).after
          inclusions events) ∧
    (∀ c text, isNameStart c = true → (∀ tail, c :: text = scheme ++ tail → StartsBlank tail) →
      ∃ name after, LongestPrefix NameWord (c :: text) name after ∧
        (after.head? ≠ some '[' → ∃ shape extent rest, Dotted .greedy shape extent ∧
          LongestPrefix (fun other => ∃ shape, Dotted .greedy shape other) (c :: text) extent rest ∧
          classify files options used position (c :: text) =
            .done (.expression (shape.build []) extent rest))) ∧
    ∀ raw rest, Balanced .brace raw →
      (∀ tail, Text.trim raw = scheme ++ tail → ∀ c ∈ tail, Text.isBlank c = true) →
      ∀ inclusions events outcome,
        classify files options used position ('{' :: raw ++ '}' :: rest) =
          ⟨inclusions, events, .ok outcome⟩ →
        (∃ shape keys, Written .delimited shape (Text.trim raw) ∧
          outcome = .expression (shape.build keys) ('{' :: raw ++ ['}']) rest) ∨
        (¬∃ shape, Written .delimited shape (Text.trim raw)) ∧
          outcome = .character [] ('{' :: raw ++ '}' :: rest) := by
  refine ⟨fun origin text => scan_classify origin text, ?_, ?_⟩
  · intro c text start unnamed
    rcases split : splitName (c :: text) with ⟨name, after⟩
    have full : name ≠ [] := by
      rintro rfl
      simp [splitName, start] at split
    refine ⟨name, after, longest_name split full, fun unbracketed => ?_⟩
    obtain ⟨shape, extent, rest, found, keyless, dotted, longest⟩ := find_longest split full unbracketed
    refine ⟨shape, extent, rest, dotted, longest, ?_⟩
    rw [classify_unbraced start (greedyPath?_eq_none unnamed), parse_keyless found keyless]
    rfl
  · intro raw rest balanced unnamed inclusions events outcome ran
    exact classify_body balanced (delimitedPath?_eq_none unnamed) ran

/-- Dots within a path are taken and the last one is left, a whole lookup in braces is
taken, and a comma in front of its closing bracket makes the `@` text. -/
theorem expression_extent_dots_and_commas :
    let files : Files := fun _ => .error .notFound
    let dots := ['A', '.', '.', 'b', '.']
    let lookup := fun inside => ' ' :: 'M' :: '[' :: inside ++ [']']
    let braced := fun inside => '{' :: lookup inside ++ ['}']
    (∃ shape extent rest, Dotted .greedy shape extent ∧
      LongestPrefix (fun other => ∃ shape, Dotted .greedy shape other) dots extent rest ∧
      classify files {} 0 0 dots = .done (.expression (shape.build []) extent rest)) ∧
    classify files {} 0 0 (braced ['a', ',', 'b'] ++ ['x']) = .done (.expression
      (.lookup ['M'] [.literal ['a'], .literal ['b']]) (braced ['a', ',', 'b']) ['x']) ∧
    (∃ shape, Written .delimited shape (Text.trim (lookup ['a', ',', 'b']))) ∧
    classify files {} 0 0 (braced ['a', ','] ++ ['x']) =
      .done (.character [] (braced ['a', ','] ++ ['x'])) ∧
    ¬∃ shape, Written .delimited shape (Text.trim (lookup ['a', ','])) := by
  intro files dots lookup braced
  obtain ⟨_, greedy, delimited⟩ := expression_extent files {} 0 0
  have taken : classify files {} 0 0 (braced ['a', ',', 'b'] ++ ['x']) = .done (.expression
    (.lookup ['M'] [.literal ['a'], .literal ['b']]) (braced ['a', ',', 'b']) ['x']) := by cbv
  have refused : classify files {} 0 0 (braced ['a', ','] ++ ['x']) =
    .done (.character [] (braced ['a', ','] ++ ['x'])) := by cbv
  refine ⟨?_, taken, ?_, refused, ?_⟩
  · obtain ⟨name, after, longest, found⟩ := greedy 'A' ['.', '.', 'b', '.'] (by decide) (by simp [scheme])
    refine found fun bracket => ?_
    have member : '[' ∈ dots := by
      rw [show dots = name ++ after from longest.whole]
      exact List.mem_append_right _ (List.mem_of_mem_head? bracket)
    exact absurd member (by decide)
  · rcases delimited (lookup ['a', ',', 'b']) ['x'] (by decide) (by rintro _ same; cases same) _ _ _ taken with
      ⟨shape, _, written, _⟩ | ⟨_, same⟩
    · exact ⟨shape, written⟩
    · cases same
  · rcases delimited (lookup ['a', ',']) ['x'] (by decide) (by rintro _ same; cases same) _ _ _ refused with
      ⟨_, _, _, same⟩ | ⟨unwritten, _⟩
    · cases same
    · exact unwritten

end StackTemplate
