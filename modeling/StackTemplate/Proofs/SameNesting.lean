import StackTemplate.Proofs.BalancedText

/-! When one text can stand for another between delimiters. What matching and cutting
at commas find around a text depends on its effect on the depth, not on the text. In
text that is balanced for both kinds of delimiters the common depth is the sum of the
two, so a comma that cuts stands outside both. -/
namespace StackTemplate.Directive

/-- Texts that change the depth alike for either kind of delimiter and for both
together, however deep they stand. -/
structure SameNesting (first second : Text) : Prop where
  balance : ∀ delimiter depth, depthThrough delimiter depth first = depthThrough delimiter depth second
  commas : ∀ depth, first.foldlM commaStep depth = second.foldlM commaStep depth

namespace SameNesting

variable {first second third fourth : Text}

theorem refl (text : Text) : SameNesting text text :=
  ⟨fun _ _ => rfl, fun _ => rfl⟩

theorem symm (same : SameNesting first second) : SameNesting second first :=
  ⟨fun delimiter depth => (same.balance delimiter depth).symm, fun depth => (same.commas depth).symm⟩

theorem trans (same : SameNesting first second) (later : SameNesting second third) :
    SameNesting first third :=
  ⟨fun delimiter depth => (same.balance delimiter depth).trans (later.balance delimiter depth),
    fun depth => (same.commas depth).trans (later.commas depth)⟩

theorem append (front : SameNesting first second) (back : SameNesting third fourth) :
    SameNesting (first ++ third) (second ++ fourth) := by
  constructor
  · intro delimiter depth
    have here := front.balance delimiter depth
    have there := funext (back.balance delimiter)
    unfold depthThrough at here there ⊢
    rw [List.foldlM_append, List.foldlM_append, here, there]
  · intro depth
    rw [List.foldlM_append, List.foldlM_append, front.commas, funext back.commas]

theorem balanced (same : SameNesting first second) {delimiter : Delimiter}
    (balanced : Balanced delimiter second) : Balanced delimiter first :=
  (same.balance delimiter 0).trans balanced

end SameNesting

/-- Nested text is text that might as well not be there. -/
theorem nested_iff_sameNesting_nil {text : Text} : Nested 0 text ↔ SameNesting text [] := by
  constructor
  · intro nested
    refine ⟨fun delimiter depth => ?_, fun depth => nested.commas depth (Nat.zero_le depth)⟩
    have kept := depthThrough_add (nested.balanced delimiter) depth
    rw [Nat.zero_add] at kept
    exact kept
  · intro same
    exact ⟨fun delimiter => same.balance delimiter 0, fun depth _ => same.commas depth⟩

theorem Nested.sameNesting {first second : Text} (nested : Nested 0 first) (other : Nested 0 second) :
    SameNesting first second :=
  (nested_iff_sameNesting_nil.mp nested).trans (nested_iff_sameNesting_nil.mp other).symm

theorem Nested.of_sameNesting {first second : Text} (nested : Nested 0 second)
    (same : SameNesting first second) : Nested 0 first :=
  nested_iff_sameNesting_nil.mpr (same.trans (nested_iff_sameNesting_nil.mp nested))

/-- The blanks that trimming takes away have no effect. -/
theorem sameNesting_trim (text : Text) : SameNesting text (Text.trim text) := by
  obtain ⟨trail, whole, leadBlank, trailBlank⟩ := Text.exists_padding text
  have lead := nested_iff_sameNesting_nil.mp (Nested.of_blank leadBlank)
  have behind := nested_iff_sameNesting_nil.mp (Nested.of_blank trailBlank)
  have padded := (lead.append (.refl (Text.trim text))).append behind
  rwa [← whole, List.nil_append, List.append_nil] at padded

/-- The common depth is the sum of the two as long as neither goes below zero. -/
private theorem depthAfter_of_steps {c : Char} {brackets braces brackets' braces' : Nat}
    (bracketStep : depthStep .bracket brackets c = some brackets')
    (braceStep : depthStep .brace braces c = some braces') (outer : Nat) :
    depthAfter (brackets + braces + outer) c = brackets' + braces' + outer := by
  simp only [depthStep, Delimiter.opener, Delimiter.closer] at bracketStep braceStep
  unfold depthAfter
  by_cases openBracket : c = '['
  · subst openBracket
    simp at bracketStep braceStep
    simp
    omega
  by_cases closeBracket : c = ']'
  · subst closeBracket
    cases brackets with
    | zero => simp at bracketStep
    | succ brackets =>
      simp at bracketStep braceStep
      simp
      omega
  by_cases openBrace : c = '{'
  · subst openBrace
    simp at bracketStep braceStep
    simp
    omega
  by_cases closeBrace : c = '}'
  · subst closeBrace
    cases braces with
    | zero => simp at braceStep
    | succ braces =>
      simp at bracketStep braceStep
      simp
      omega
  simp_all

/-- Both depths together tell the common one, in text that no comma cuts where it
stands or that stands inside delimiters. -/
theorem commas_through {text : Text} {brackets braces brackets' braces' outer : Nat}
    (bracketThrough : depthThrough .bracket brackets text = some brackets')
    (braceThrough : depthThrough .brace braces text = some braces')
    (uncut : 1 ≤ outer ∨ ∃ later, text.foldlM commaStep (brackets + braces) = some later) :
    text.foldlM commaStep (brackets + braces + outer) = some (brackets' + braces' + outer) := by
  induction text generalizing brackets braces with
  | nil =>
    cases bracketThrough
    cases braceThrough
    rfl
  | cons c text ih =>
    obtain ⟨nextBrackets, bracketStep, bracketLater⟩ := Option.bind_eq_some_iff.mp bracketThrough
    obtain ⟨nextBraces, braceStep, braceLater⟩ := Option.bind_eq_some_iff.mp braceThrough
    have stays : ¬(c = ',' ∧ brackets + braces + outer = 0) ∧
        (1 ≤ outer ∨ ∃ later, text.foldlM commaStep (nextBrackets + nextBraces) = some later) := by
      rcases uncut with deep | ⟨later, ran⟩
      · exact ⟨by omega, .inl deep⟩
      · obtain ⟨middle, step, after⟩ := Option.bind_eq_some_iff.mp ran
        unfold commaStep at step
        split at step
        · cases step
        · next here =>
          cases step
          have level := depthAfter_of_steps bracketStep braceStep 0
          simp only [Nat.add_zero] at level
          exact ⟨fun both => here ⟨both.1, by omega⟩, .inr ⟨later, level ▸ after⟩⟩
    have step : commaStep (brackets + braces + outer) c = some (nextBrackets + nextBraces + outer) := by
      rw [commaStep, if_neg stays.1, depthAfter_of_steps bracketStep braceStep]
    exact Option.bind_eq_some_iff.mpr ⟨_, step, ih bracketLater braceLater stays.2⟩

theorem Balanced.both {text : Text} (brackets : Balanced .bracket text) (braces : Balanced .brace text)
    (delimiter : Delimiter) : Balanced delimiter text := by
  cases delimiter with
  | bracket => exact brackets
  | brace => exact braces

/-- Balanced text that no comma cuts is nested. -/
theorem nested_of_uncut {text : Text} (balanced : ∀ delimiter, Balanced delimiter text) {later : Nat}
    (uncut : text.foldlM commaStep 0 = some later) : Nested 0 text := by
  refine ⟨balanced, fun depth _ => ?_⟩
  simpa using @commas_through text 0 0 0 0 depth (balanced .bracket) (balanced .brace) (.inr ⟨later, uncut⟩)

/-- Inside delimiters no comma cuts balanced text. -/
theorem nested_of_balanced {text : Text} (balanced : ∀ delimiter, Balanced delimiter text) :
    Nested 1 text := by
  refine ⟨balanced, fun depth deep => ?_⟩
  simpa using @commas_through text 0 0 0 0 depth (balanced .bracket) (balanced .brace) (.inl deep)

/-- Cutting text in which both depths come to zero: the first piece takes them there,
and every other piece is nested. -/
private theorem pieces_through {text : Text} {brackets braces : Nat}
    (bracketThrough : depthThrough .bracket brackets text = some 0)
    (braceThrough : depthThrough .brace braces text = some 0) :
    ∃ first more, cutAtCommas (brackets + braces) text = first :: more ∧
      depthThrough .bracket brackets first = some 0 ∧ depthThrough .brace braces first = some 0 ∧
      first.foldlM commaStep (brackets + braces) = some 0 ∧ ∀ piece ∈ more, Nested 0 piece := by
  induction text generalizing brackets braces with
  | nil =>
    cases bracketThrough
    cases braceThrough
    exact ⟨[], [], rfl, rfl, rfl, rfl, by simp⟩
  | cons c text ih =>
    obtain ⟨nextBrackets, bracketStep, bracketLater⟩ := Option.bind_eq_some_iff.mp bracketThrough
    obtain ⟨nextBraces, braceStep, braceLater⟩ := Option.bind_eq_some_iff.mp braceThrough
    obtain ⟨first, more, cut, bracketFirst, braceFirst, uncut, nested⟩ := ih bracketLater braceLater
    by_cases here : c = ',' ∧ brackets + braces = 0
    · obtain ⟨rfl, outside⟩ := here
      obtain ⟨rfl, rfl⟩ : brackets = 0 ∧ braces = 0 := by omega
      cases bracketStep
      cases braceStep
      have firstNested : Nested 0 first := nested_of_uncut (Balanced.both bracketFirst braceFirst) uncut
      refine ⟨[], first :: more, ?_, rfl, rfl, rfl, List.forall_mem_cons.mpr ⟨firstNested, nested⟩⟩
      rw [cutAtCommas, if_pos ⟨rfl, rfl⟩]
      exact congrArg ([] :: ·) cut
    · have level := depthAfter_of_steps bracketStep braceStep 0
      simp only [Nat.add_zero] at level
      have step : commaStep (brackets + braces) c = some (nextBrackets + nextBraces) := by
        rw [commaStep, if_neg here, level]
      refine ⟨c :: first, more, ?_, Option.bind_eq_some_iff.mpr ⟨_, bracketStep, bracketFirst⟩,
        Option.bind_eq_some_iff.mpr ⟨_, braceStep, braceFirst⟩,
        Option.bind_eq_some_iff.mpr ⟨_, step, uncut⟩, nested⟩
      rw [cutAtCommas, if_neg here, level, cut, extendFirst]

/-- The pieces between the commas of balanced text are nested. -/
theorem nested_pieces {text : Text} (balanced : ∀ delimiter, Balanced delimiter text) :
    ∀ piece ∈ cutAtCommas 0 text, Nested 0 piece := by
  obtain ⟨first, more, cut, bracketFirst, braceFirst, uncut, nested⟩ :=
    pieces_through (balanced .bracket) (balanced .brace)
  have firstNested : Nested 0 first := nested_of_uncut (Balanced.both bracketFirst braceFirst) uncut
  rw [show cutAtCommas 0 text = first :: more from cut]
  exact List.forall_mem_cons.mpr ⟨firstNested, nested⟩

/-- A text is balanced when the pieces between its commas are. -/
theorem balanced_of_pieces {delimiter : Delimiter} {text : Text}
    (pieces : ∀ piece ∈ cutAtCommas 0 text, Balanced delimiter piece) : Balanced delimiter text := by
  rw [← intercalate_cutAtCommas 0 text]
  exact .intercalate pieces

end StackTemplate.Directive
