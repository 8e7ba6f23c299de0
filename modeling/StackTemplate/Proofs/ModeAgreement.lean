import StackTemplate.Proofs.Classification
import StackTemplate.Proofs.ExpressionGrammar
import StackTemplate.Proofs.SafeCuts

/-! Braces around an expression only say where it ends. What is parsed without them is
parsed from its own text as a whole, and putting it in braces, with blanks around it,
changes neither the fragment nor the inclusions; an error moves by what was put in front. -/
namespace StackTemplate

namespace Directive

/-- What is read as an expression without braces was found there. -/
theorem read_unbraced {text extent rest : Text} {lead : Nat} {shape : Shape}
    (unbraced : text.head? ≠ some '{')
    (reading : read text = ⟨.expression lead shape, extent, rest⟩) :
    lead = 1 ∧ findExpression .greedy text = .expression shape extent rest := by
  unfold read at reading
  split at reading
  · cases reading
  · next c tail =>
    have notBrace : c ≠ '{' := by simpa using unbraced
    rw [if_neg notBrace] at reading
    split at reading
    · cases reading
    · split at reading
      · unfold readGreedy at reading
        split at reading
        · cases reading
        · split at reading
          · cases reading
          · cases reading
          · next found =>
            cases reading
            exact ⟨rfl, found⟩
      · cases reading

end Directive

namespace Interpolation
open Directive

variable {files : Files} {options : Options}

/-- What is parsed without braces is parsed from its own text as the body of braces. -/
theorem parse_delimited {used base base' : Nat} {text : Text} {inclusions : List Inclusion}
    {events : List Event} {fragment : Fragment} {extent rest : Text}
    (ran : parse files options used base .greedy text =
      ⟨inclusions, events, .ok (some ⟨fragment, extent, rest⟩)⟩) :
    text = extent ++ rest ∧ ∃ events', parse files options used base' .delimited extent =
      ⟨inclusions, events', .ok (some ⟨fragment, extent, []⟩)⟩ := by
  unfold parse at ran
  cases found : findExpression .greedy text with
  | nothing =>
    rw [found] at ran
    cases ran
  | unclosed offset =>
    rw [found] at ran
    cases ran
  | expression shape taken tail =>
    rw [found] at ran
    obtain ⟨keys, keysRan, same⟩ := Run.map_eq_ok ran
    cases same
    have whole := (findExpression_fits found).1
    have foundAlone := (findExpression_written found).delimited.found
    obtain ⟨events', keysRanAlone⟩ : ∃ events', scanKeys files options used
        (base' + shape.keysOffset) shape.keys = ⟨inclusions, events', .ok keys⟩ :=
      scanKeys_ran_alike keysRan
    refine ⟨whole.symm, events', ?_⟩
    rw [parse, foundAlone]
    dsimp only
    rw [keysRanAlone]
    rfl

end Interpolation

open Interpolation Directive

/-- Greedy and delimited parsing agree. An expression that is parsed without braces is
parsed in braces from its own text, as a whole and with the same inclusions. So where an
`@` begins an expression that takes the whole text and pairs its braces, braces around it,
with blanks inside them, give the same fragment after the same inclusions; where the
expression fails they fail alike, with the error as much further on as the expression is. -/
theorem greedy_agrees_delimited (files : Files) (options : Options) :
    (∀ used base base' text inclusions events fragment extent rest,
      parse files options used base .greedy text =
        ⟨inclusions, events, .ok (some ⟨fragment, extent, rest⟩)⟩ →
      text = extent ++ rest ∧ ∃ events', parse files options used base' .delimited extent =
        ⟨inclusions, events', .ok (some ⟨fragment, extent, []⟩)⟩) ∧
    ∀ text lead shape, text.head? ≠ some '{' →
      Directive.read text = ⟨.expression lead shape, text, []⟩ → Balanced .brace text →
      ∀ before after, (∀ c ∈ before, Text.isBlank c = true) → (∀ c ∈ after, Text.isBlank c = true) →
        let bare := interpolate files options ('@' :: text)
        let braced := interpolate files options ('@' :: '{' :: (before ++ text ++ after) ++ ['}'])
        braced.inclusions = bare.inclusions ∧
          braced.result =
            bare.result.mapError (·.beyond (1 + Text.byteLength before) options.includeLimit) := by
  constructor
  · intro used base base' text inclusions events fragment extent rest ran
    exact parse_delimited ran
  · intro text lead shape unbraced reading balanced before after blankBefore blankAfter bare braced
    obtain ⟨rfl, found⟩ := read_unbraced unbraced reading
    have written := findExpression_written found
    have padded := read_padded blankBefore blankAfter balanced written.tight written.delimited.found []
    obtain ⟨bareRead, bareResult⟩ : bare.inclusions = _ ∧ bare.result = _ :=
      interpolate_lone files options reading
    obtain ⟨bracedRead, bracedResult⟩ : braced.inclusions = _ ∧ braced.result = _ :=
      interpolate_lone files options padded
    have matched := (@scan_matches files options options rfl).2 0
      (2 + Text.byteLength before + shape.keysOffset) shape.keys 0 (1 + shape.keysOffset)
      (fun offset offset' => offset = offset' + (1 + Text.byteLength before)) rfl
      (fun k => by omega)
    rw [bareRead, bareResult, bracedRead, bracedResult]
    generalize scanKeys files options 0 (1 + shape.keysOffset) shape.keys = bareKeys at matched ⊢
    generalize scanKeys files options 0 (2 + Text.byteLength before + shape.keysOffset) shape.keys =
      bracedKeys at matched ⊢
    cases matched with
    | ended inclusions events events' found => exact ⟨rfl, rfl⟩
    | failed inclusions events events' errors => exact ⟨rfl, congrArg Except.error errors.eq_beyond⟩

/-- A path is parsed up to the dot that ends a sentence, and from its own text as a whole. A
lookup with an inclusion in its key is the same with braces and blanks around it. -/
theorem greedy_agrees_delimited_path_and_lookup :
    let files : Files := fun path => if path = ['k'] then .ok ['v'] else .error .notFound
    let key := '@' :: '{' :: scheme ++ ['k', '}']
    let lookup := 'M' :: '[' :: key ++ [',', '@', 'B', ']']
    let path := ['A', '.', 'b']
    (parse files {} 0 0 .delimited path).result = .ok (some ⟨.attributeOf ['A'] ['b'], path, []⟩) ∧
    (interpolate files {} ('@' :: '{' :: ([' '] ++ lookup ++ ['\n']) ++ ['}'])).result =
      .ok (.lookup ['M'] [.literal ['v'], .reference ['B']]) := by
  intro files key lookup path
  obtain ⟨alone, braced⟩ := greedy_agrees_delimited files {}
  constructor
  · obtain ⟨_, events, ran⟩ := alone 0 0 0 (path ++ ['.', ' ']) [] [] (.attributeOf ['A'] ['b']) path
      ['.', ' '] (by cbv)
    rw [ran]
  · have reading : Directive.read lookup =
      ⟨.expression 1 (.lookup ['M'] [⟨0, key⟩, ⟨12, ['@', 'B']⟩]), lookup, []⟩ := by decide
    have bare : (interpolate files {} ('@' :: lookup)).result =
      .ok (.lookup ['M'] [.literal ['v'], .reference ['B']]) := by cbv
    have same := (braced lookup _ _ (by decide) reading (by decide) [' '] ['\n']
      (by simp [Text.isBlank]) (by simp [Text.isBlank])).2
    rw [bare] at same
    exact same

end StackTemplate
