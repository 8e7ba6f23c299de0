import StackTemplate.Proofs.DisplayRoundTrip

/-! A weight of source text that the convention for single keys cannot be seen in. It
counts what display adds to a text: a sign for each sign of literal text, and a brace
for each expression that was read without one. -/
namespace StackTemplate

namespace Text

/-- Signs and opening braces, less two for each comma. A reference in braces and the
comma behind it weigh nothing, so a lookup weighs as much with the key that the
convention supplies as without it. -/
def weight (text : Text) : Int :=
  text.count '@' + text.count '{' - 2 * text.count ','

theorem weight_append (first second : Text) :
    weight (first ++ second) = weight first + weight second := by
  simp only [weight, List.count_append]
  omega

theorem weight_of_free {text : Text} (free : ∀ c ∈ text, c ∉ ['@', '{', ',']) : weight text = 0 := by
  have absent {c : Char} (weighs : c ∈ ['@', '{', ',']) : text.count c = 0 :=
    List.count_eq_zero.mpr fun member => free c member weighs
  simp [weight, absent]

/-- Blanks weigh nothing. -/
theorem weight_trim (text : Text) : weight (trim text) = weight text := by
  obtain ⟨trail, whole, leadBlank, trailBlank⟩ := exists_padding text
  have light {blanks : Text} (blank : ∀ c ∈ blanks, isBlank c = true) : weight blanks = 0 := by
    refine weight_of_free fun c member weighs => ?_
    have isBlank := blank c member
    simp only [List.mem_cons, List.not_mem_nil, or_false] at weighs
    rcases weighs with rfl | rfl | rfl <;> cases isBlank
  have sum := congrArg weight whole
  rw [weight_append, weight_append, light leadBlank, light trailBlank] at sum
  omega

/-- What texts weigh with commas between them. -/
theorem weight_intercalate {separator : Text} (comma : weight separator = -2) {texts : List Text}
    (full : texts ≠ []) :
    weight (separator.intercalate texts) = (texts.map fun text => weight text - 2).sum + 2 := by
  induction texts with
  | nil => exact absurd rfl full
  | cons text texts ih =>
    cases texts with
    | nil => simp
    | cons next texts =>
      rw [List.intercalate_cons_cons, weight_append, weight_append, comma, ih (by simp)]
      simp only [List.map_cons, List.sum_cons]
      omega

end Text

namespace Directive
open Text (weight)

theorem IsName.weight {name : Text} (named : IsName name) : weight name = 0 := by
  have excluded : ∀ c ∈ ['@', '{', ','], ¬(isNameChar c = true ∨ c = ':') := by simp [isNameChar]
  exact Text.weight_of_free fun c member weighs => excluded c weighs (named.chars c member)

end Directive

namespace Fragment
open Directive
open Text (weight)

/-- A lookup is written with all of its keys, or without the one that the convention
supplies. -/
theorem display_ofKeys (name : Text) (found : List Fragment) :
    display (ofKeys name found) = delimited (bracketed name (found.map display)) ∨
    ∃ stem key, found = [reference stem, key] ∧ name = stem ++ mapSuffix ∧
      display (ofKeys name found) = delimited (bracketed stem [display key]) := by
  have explicit {keys : List Fragment} :
      display (lookup name keys) = delimited (bracketed name (keys.map display)) ∨
      ∃ stem key, keys = [reference stem, key] ∧ name = stem ++ mapSuffix ∧
        display (lookup name keys) = delimited (bracketed stem [display key]) := by
    cases follows : conventionStem? name keys with
    | none => exact .inl (by simp only [display, follows, displayAll_eq_map])
    | some stem =>
      obtain ⟨key, rfl, rfl⟩ := conventionStem?_eq_some follows
      exact .inr ⟨stem, key, rfl, rfl, by simp [display, follows, displayAll]⟩
  cases found with
  | nil => exact explicit
  | cons key more =>
    cases more with
    | nil => exact .inl (by simp [ofKeys, byConvention, display, conventionStem?, displayAll])
    | cons second more => exact explicit

theorem weight_delimited (body : Text) : weight (delimited body) = weight body + 2 := by
  have whole : delimited body = ['@', '{'] ++ body ++ ['}'] := rfl
  have opening : weight ['@', '{'] = 2 := rfl
  have closing : weight ['}'] = 0 := rfl
  rw [whole, Text.weight_append, Text.weight_append, opening, closing]
  omega

theorem weight_brackets (name inside : Text) :
    weight (name ++ '[' :: inside ++ [']']) = weight name + weight inside := by
  have whole : name ++ '[' :: inside ++ [']'] = name ++ (['['] ++ inside ++ [']']) := by simp
  have opening : weight ['['] = 0 := rfl
  have closing : weight [']'] = 0 := rfl
  rw [whole, Text.weight_append, Text.weight_append, Text.weight_append, opening, closing]
  omega

theorem weight_bracketed {name : Text} (light : weight name = 0) {texts : List Text} (full : texts ≠ []) :
    weight (bracketed name texts) = (texts.map fun text => weight text - 2).sum + 2 := by
  have comma : weight [',', ' '] = -2 := rfl
  rw [bracketed, weight_brackets, light, Text.weight_intercalate comma full]
  omega

/-- A lookup weighs what its keys weigh, also where one of them is not written. -/
theorem weight_ofKeys {name : Text} (named : IsName name) {found : List Fragment} (full : found ≠ []) :
    weight (display (ofKeys name found)) =
      (found.map fun key => weight (display key) - 2).sum + 4 := by
  obtain shown | ⟨stem, key, rfl, rfl, shown⟩ := display_ofKeys name found
  · rw [shown, weight_delimited, weight_bracketed named.weight (by simpa using full), List.map_map]
    simp only [Function.comp_def]
    omega
  · have light : weight stem = 0 := by
      have suffix : weight mapSuffix = 0 := rfl
      have sum := named.weight
      rw [Text.weight_append, suffix] at sum
      omega
    have reference : weight (display (reference stem)) = 2 := by
      rw [display, weight_delimited, light]
      rfl
    rw [shown, weight_delimited, weight_bracketed light (by simp)]
    simp [reference]
    omega

theorem weight_escape (text : Text) : weight (escape text) = weight text + text.count '@' := by
  induction text with
  | nil => rfl
  | cons c text ih =>
    have whole : weight (c :: text) = weight [c] + weight text := Text.weight_append [c] text
    rw [escape_cons, Text.weight_append, ih, whole]
    by_cases isAt : c = '@'
    · subst isAt
      have doubled : weight (escape ['@']) = 2 := rfl
      have single : weight ['@'] = 1 := rfl
      rw [doubled, single, List.count_cons_self]
      omega
    · rw [escape_character isAt, List.count_cons_of_ne isAt]
      omega

end Fragment

end StackTemplate
