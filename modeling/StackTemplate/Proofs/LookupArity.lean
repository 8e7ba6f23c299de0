import StackTemplate.Proofs.ExpressionGrammar
import StackTemplate.Proofs.ScanSimulation

/-! A lookup with any number of keys. Each key denotes what it denotes by itself, wherever
it stands and whatever stands beside it; only the inclusions of the keys before it are
counted against the same limit. One key follows the convention and more are explicit. -/
namespace StackTemplate

namespace Directive

/-- Text that can stand between the commas of a lookup. Its brackets match; counting both
kinds of delimiters alike, nothing is left open at its end and each of its commas stands
inside something. -/
structure KeyText (text : Text) : Prop where
  full : text ≠ []
  tight : Text.Tight text
  brackets : Balanced .bracket text
  commas : text.foldlM commaStep 0 = some 0

/-- Pieces are balanced as the keys in them are. -/
theorem balanced_padded {delimiter : Delimiter} {pieces texts : List Text}
    (padded : List.Forall₂ Text.Padded pieces texts)
    (balanced : ∀ text ∈ texts, Balanced delimiter text) : ∀ piece ∈ pieces, Balanced delimiter piece := by
  induction padded with
  | nil => simp
  | cons here _ ih =>
    obtain ⟨own, later⟩ := List.forall_mem_cons.mp balanced
    obtain ⟨before, after, blankBefore, blankAfter, rfl⟩ := here
    have front := (Nested.of_blank blankBefore).balanced delimiter
    have back := (Nested.of_blank blankAfter).balanced delimiter
    exact List.forall_mem_cons.mpr ⟨(front.append own).append back, ih later⟩

/-- A name and keys between brackets are read as a lookup with those keys. -/
theorem read_lookup {name : Text} {pieces texts : List Text} (named : IsName name) (several : texts ≠ [])
    (keyTexts : ∀ text ∈ texts, KeyText text) (padded : List.Forall₂ Text.Padded pieces texts) :
    ∃ keys, keys.map Key.text = texts ∧
      read (name ++ '[' :: [','].intercalate pieces ++ [']']) =
        ⟨.expression 1 (.lookup name keys), name ++ '[' :: [','].intercalate pieces ++ [']'], []⟩ := by
  have full : pieces ≠ [] := by
    rintro rfl
    cases padded
    exact several rfl
  have inside : Balanced .bracket ([','].intercalate pieces) :=
    .intercalate (balanced_padded padded fun text member => (keyTexts text member).brackets)
  have listed := splitKeys_padded full padded fun text member =>
    ⟨(keyTexts text member).commas, (keyTexts text member).tight⟩
  have someText : ∀ key ∈ splitKeys ([','].intercalate pieces), key.text ≠ [] := fun key member =>
    (keyTexts key.text (listed ▸ List.mem_map_of_mem member)).full
  refine ⟨_, listed, ?_⟩
  have found : findExpression .greedy (name ++ '[' :: [','].intercalate pieces ++ [']']) = _ :=
    find_lookup named inside someText
  have unnamed : greedyPath? (name ++ '[' :: [','].intercalate pieces ++ [']']) = none := by
    rw [List.append_assoc, List.cons_append]
    exact named.not_greedy_file rfl (by simp)
  obtain ⟨c, tail, rfl, start⟩ := named.head
  exact read_found start unnamed found

end Directive

namespace Interpolation
open Directive (Key)

variable {files : Files} {options : Options}

/-- Keys and what they denote after `used` inclusions. A key that does not begin with an
`@` stands for itself. Any other denotes what it denotes by itself, with the inclusions
that are left. -/
inductive KeysDenote (files : Files) (options : Options) :
    Nat → List Text → List Inclusion → List Fragment → Prop where
  | nil {used : Nat} : KeysDenote files options used [] [] []
  | verbatim {used : Nat} {text : Text} {texts : List Text} {inclusions : List Inclusion}
      {found : List Fragment} (plain : text.head? ≠ some '@')
      (later : KeysDenote files options used texts inclusions found) :
      KeysDenote files options used (text :: texts) inclusions (.literal text :: found)
  | interpolated {used : Nat} {text : Text} {texts : List Text} {read inclusions : List Inclusion}
      {value : Fragment} {found : List Fragment} (isAt : text.head? = some '@')
      (included : (interpolate files { options with includeLimit := options.includeLimit - used }
        text).inclusions = read)
      (denotes : (interpolate files { options with includeLimit := options.includeLimit - used }
        text).result = .ok value)
      (later : KeysDenote files options (used + read.length) texts inclusions found) :
      KeysDenote files options used (text :: texts) (read ++ inclusions) (value :: found)

namespace KeysDenote

variable {used : Nat} {texts : List Text} {inclusions : List Inclusion} {found : List Fragment}

theorem length_eq (denote : KeysDenote files options used texts inclusions found) :
    found.length = texts.length := by
  induction denote with
  | nil => rfl
  | verbatim plain later ih => rw [List.length_cons, List.length_cons, ih]
  | interpolated isAt included denotes later ih => rw [List.length_cons, List.length_cons, ih]

/-- Keys are scanned to what they denote, wherever the brackets stand. -/
theorem scanned (denote : KeysDenote files options used texts inclusions found) {keys : List Key}
    (same : keys.map Key.text = texts) (base : Nat) :
    ∃ events, scanKeys files options used base keys = ⟨inclusions, events, .ok found⟩ := by
  induction denote generalizing keys with
  | nil =>
    obtain rfl := List.map_eq_nil_iff.mp same
    exact ⟨[], scanKeys_nil⟩
  | verbatim plain later ih =>
    obtain ⟨key, more, rfl, rfl, rest⟩ := List.map_eq_cons_iff.mp same
    obtain ⟨events, ran⟩ := ih rest
    exact ⟨events, by rw [scanKeys_literal plain, ran]; rfl⟩
  | @interpolated used text texts read inclusions value found isAt included denotes later ih =>
    obtain ⟨key, more, rfl, rfl, rest⟩ := List.map_eq_cons_iff.mp same
    obtain ⟨told, parts, rfl, alone⟩ := interpolate_ok denotes
    rw [included] at alone
    obtain ⟨early, ranHere⟩ : ∃ events, scan files options used (.start (base + key.offset)) 0 key.text =
        ⟨read, events, .ok parts⟩ := scan_ran_alike (by rfl) (by rfl) alone
    obtain ⟨late, ranLater⟩ := ih rest
    refine ⟨early ++ late, ?_⟩
    rw [scanKeys_scanned isAt, ranHere]
    simp only [ranLater, Assembly.ofFragments_eq_collapse]
    rfl

end KeysDenote

end Interpolation

open Interpolation Directive

/-- The number of keys decides what a lookup is. A name with keys between brackets, with
any blanks around the keys, is one expression: with a single key the lookup by convention,
with more the explicit one, of what the keys denote one after the other. -/
theorem interpolate_lookup {files : Files} {options : Options} {name : Text} {pieces texts : List Text}
    {inclusions : List Inclusion} {found : List Fragment} (named : IsName name) (several : texts ≠ [])
    (keyTexts : ∀ text ∈ texts, KeyText text) (padded : List.Forall₂ Text.Padded pieces texts)
    (denote : KeysDenote files options 0 texts inclusions found) :
    let run := interpolate files options ('@' :: (name ++ '[' :: [','].intercalate pieces ++ [']']))
    run.inclusions = inclusions ∧
    (texts.length = 1 → ∃ key, found = [key] ∧ run.result = .ok (.byConvention name key)) ∧
    (2 ≤ texts.length → ∃ lookup, Fragment.explicit name found = some lookup ∧ run.result = .ok lookup) := by
  intro run
  obtain ⟨keys, listed, reading⟩ := read_lookup named several keyTexts padded
  obtain ⟨read, result⟩ : run.inclusions = _ ∧ run.result = _ := interpolate_lone files options reading
  obtain ⟨events, ran⟩ := denote.scanned listed (1 + (Shape.lookup name keys).keysOffset)
  have counted := denote.length_eq
  rw [read, result, Shape.keys, ran]
  refine ⟨rfl, fun one => ?_, fun more => ?_⟩
  · obtain ⟨key, rfl⟩ := List.length_eq_one_iff.mp (counted.trans one)
    exact ⟨key, rfl, rfl⟩
  · rw [← counted] at more
    obtain ⟨first, others, rfl⟩ := List.exists_cons_of_length_pos (Nat.lt_of_lt_of_le Nat.two_pos more)
    obtain ⟨second, rest, rfl⟩ := List.exists_cons_of_length_pos (Nat.le_of_succ_le_succ more)
    exact ⟨_, rfl, rfl⟩

/-- A comma between brackets does not end a key, and blanks do not belong to one. The key
that includes a file may use the whole limit, as the key before it includes none. -/
theorem interpolate_lookup_brackets_and_inclusion :
    let files : Files := fun path => if path = ['k'] then .ok ['@', 'B'] else .error .notFound
    let nested := ['a', '[', 'b', ',', 'c', ']']
    let included := '@' :: '{' :: scheme ++ ['k', '}']
    let pieces := [nested ++ [' '], '\t' :: included]
    let text := '@' :: (['M'] ++ '[' :: [','].intercalate pieces ++ [']'])
    (interpolate files { includeLimit := 1 } text).result =
      .ok (.lookup ['M'] [.literal nested, .reference ['B']]) := by
  intro files nested included pieces text
  have keyTexts : ∀ text ∈ [nested, included], KeyText text := by
    simp only [List.forall_mem_cons, List.not_mem_nil, false_implies, implies_true, and_true]
    exact ⟨⟨by decide, by decide, by decide, by decide⟩, ⟨by decide, by decide, by decide, by decide⟩⟩
  have padded : List.Forall₂ Text.Padded pieces [nested, included] :=
    .cons ⟨[], [' '], by simp, by simp [Text.isBlank], rfl⟩
      (.cons ⟨['\t'], [], by simp [Text.isBlank], by simp, by simp⟩ .nil)
  have second : KeysDenote files { includeLimit := 1 } 0 [included] ([⟨['k'], ['k']⟩] ++ [])
      [.reference ['B']] := .interpolated rfl (by cbv) (by cbv) .nil
  obtain ⟨lookup, same, ran⟩ := (interpolate_lookup (by decide : IsName ['M']) (by simp) keyTexts padded
    (.verbatim (by decide) second)).2.2 (Nat.le_refl 2)
  cases same
  exact ran

end StackTemplate
