import StackTemplate.Proofs.DirectiveShape
import StackTemplate.Proofs.FlatFragments
import StackTemplate.Proofs.SafeCuts

/-! What an interpolation can give. Joins are proper, lookups have two keys or
more, and every name and path could have been written in a template; this holds
at every depth, inside keys and in what files brought in. -/
namespace StackTemplate

open Directive (IsName ReadablePath Key)

namespace Fragment

/-- Literals do not stand side by side. -/
def Apart (parts : List Fragment) : Prop :=
  parts.IsChain fun part next => ¬(part.isLiteral = true ∧ next.isLiteral = true)

/-- Fragments in the form that reading gives them, at every depth. -/
inductive WellShaped : Fragment → Prop where
  | literal (text : Text) : WellShaped (literal text)
  | reference {name : Text} (named : IsName name) : WellShaped (reference name)
  | attributeOf {name path : Text} (named : IsName name) (led : ReadablePath path) :
      WellShaped (attributeOf name path)
  | lookup {map : Text} {keys : List Fragment} (named : IsName map) (several : 2 ≤ keys.length)
      (shaped : ∀ key ∈ keys, WellShaped key) : WellShaped (lookup map keys)
  | join {parts : List Fragment} (several : 2 ≤ parts.length)
      (expressive : ∃ part ∈ parts, part.isLiteral = false) (full : literal [] ∉ parts)
      (apart : Apart parts) (unjoined : Unjoined parts) (shaped : ∀ part ∈ parts, WellShaped part) :
      WellShaped (join parts)

/-- Two literals side by side grow together. -/
private theorem prepend_apart {part : Fragment} {parts : List Fragment} (apart : Apart parts) :
    Apart (prepend part parts) := by
  unfold prepend
  split
  · exact apart
  · next text next more full =>
    rw [Apart, List.isChain_cons] at apart ⊢
    exact apart
  · next absent different =>
    rw [Apart, List.isChain_cons]
    refine ⟨fun next first both => ?_, apart⟩
    obtain ⟨text, isText⟩ := exists_text both.1
    obtain ⟨later, laterText⟩ := exists_text both.2
    obtain ⟨more, whole⟩ := List.head?_eq_some_iff.mp first
    exact different text later more isText (by rw [whole, laterText])

theorem merge_apart (parts : List Fragment) : Apart (merge parts) := by
  induction parts with
  | nil => exact List.IsChain.nil
  | cons part parts ih => exact prepend_apart ih

/-- Well-shaped parts collapse to a well-shaped fragment. -/
theorem collapse_wellShaped {parts : List Fragment} (unjoined : Unjoined parts)
    (shaped : ∀ part ∈ parts, WellShaped part) : WellShaped (collapse parts) := by
  have solid := merge_solid unjoined
  have apart := merge_apart parts
  have mergedShaped : ∀ part ∈ merge parts, WellShaped part := by
    intro part member
    rcases mem_merge member with isText | inside
    · obtain ⟨text, rfl⟩ := exists_text isText
      exact .literal text
    · exact shaped part inside
  unfold collapse
  generalize merge parts = merged at solid apart mergedShaped ⊢
  match merged with
  | [] => exact .literal []
  | [part] => exact mergedShaped part (by simp)
  | first :: second :: more =>
    have distinct : ¬(first.isLiteral = true ∧ second.isLiteral = true) :=
      (List.isChain_cons_cons.mp apart).1
    have expressive : ∃ part ∈ first :: second :: more, part.isLiteral = false := by
      cases isText : first.isLiteral with
      | false => exact ⟨first, by simp, isText⟩
      | true => exact ⟨second, by simp, by simpa [isText] using distinct⟩
    exact .join (by simp) expressive (fun member => (solid _ member).1 rfl) apart
      (fun part member => (solid part member).2) mergedShaped

end Fragment

open Fragment

/-- A readable expression with as many well-shaped keys as were written. -/
theorem Shape.Readable.build {shape : Shape} (readable : shape.Readable) {found : List Fragment}
    (complete : found.length = shape.keys.length) (shaped : ∀ key ∈ found, WellShaped key) :
    WellShaped (shape.build found) := by
  cases readable with
  | reference named => exact .reference named
  | attributeOf named led => exact .attributeOf named led
  | lookup named keyed =>
    match found with
    | [] => exact absurd (List.length_eq_zero_iff.mp complete.symm) keyed
    | [key] =>
      have suffixed : IsName (_ ++ mapSuffix) := named.append (by simp [mapSuffix, Directive.isNameChar])
      refine .lookup suffixed (by simp) (List.forall_mem_cons.mpr ⟨.reference named, shaped⟩)
    | first :: second :: more => exact .lookup named (by simp) shaped

namespace Interpolation

private theorem yield_wellShaped {text extent rest : Text} {directive : Directive}
    {build : List Fragment → Fragment} (reading : Directive.read text = ⟨directive, extent, rest⟩)
    (yields : directive.yield? = some build) {found : List Fragment}
    (complete : found.length = directive.keys.length) (shaped : ∀ key ∈ found, WellShaped key) :
    WellShaped (build found) := by
  cases directive with
  | expression lead shape =>
    cases yields
    have readable : shape.Readable := Directive.read_readable (by rw [reading]; rfl)
    exact readable.build complete shaped
  | escape => cases yields; exact .literal _
  | plain => cases yields; exact .literal _
  | rejected lead shape => cases yields; exact .literal _
  | inclusion named => cases yields
  | unclosed delimiter offset => cases yields

/-- Every part a scan lists is well shaped, and every key it is given comes out
as one. -/
theorem scan_wellShaped (files : Files) (options : Options) :
    (∀ used origin position text, ∀ inclusions events parts,
      scan files options used origin position text = ⟨inclusions, events, .ok parts⟩ →
      ∀ part ∈ parts, WellShaped part) ∧
    ∀ used base keys, ∀ inclusions events found,
      scanKeys files options used base keys = ⟨inclusions, events, .ok found⟩ →
      found.length = keys.length ∧ ∀ key ∈ found, WellShaped key := by
  apply scan_induction files options
  case nil =>
    intro used origin position inclusions events parts ran
    rw [scan_nil] at ran
    cases ran
    simp
  case text =>
    intro used origin position c text plain ih inclusions events parts ran
    rw [scan_text plain] at ran
    obtain ⟨inner, inside, rfl⟩ := Run.map_eq_ok ran
    exact List.forall_mem_cons.mpr ⟨.literal [c], ih _ _ _ inside⟩
  case unclosed =>
    intro used origin position text delimiter offset extent rest reading inclusions events parts ran
    rw [scan_unclosed reading] at ran
    cases ran
  case inclusion =>
    intro used origin position text named extent rest reading ih inclusions events parts ran
    obtain ⟨content, later, laterTold, room, held, inside, _, _⟩ := scan_inclusion_ok reading ran
    exact ih content room held _ _ _ inside
  case yields =>
    intro used origin position text directive extent rest build reading yields keys after
      inclusions events parts ran
    obtain ⟨read, told, found, later, laterTold, inner, keysRan, inside, _, _, rfl⟩ :=
      scan_yields_ok reading yields ran
    obtain ⟨complete, shaped⟩ := keys _ _ _ keysRan
    have here := yield_wellShaped reading yields complete shaped
    exact List.forall_mem_cons.mpr ⟨here, after _ _ _ keysRan _ _ _ inside⟩
  case noKeys =>
    intro used base inclusions events found ran
    rw [scanKeys_nil] at ran
    cases ran
    simp
  case literalKey =>
    intro used base key more verbatim ih inclusions events found ran
    rw [scanKeys_literal verbatim] at ran
    obtain ⟨inner, inside, rfl⟩ := Run.map_eq_ok ran
    obtain ⟨complete, shaped⟩ := ih _ _ _ inside
    exact ⟨by simp [complete], List.forall_mem_cons.mpr ⟨.literal _, shaped⟩⟩
  case scannedKey =>
    intro used base key more isAt inside after inclusions events found ran
    obtain ⟨read, told, parts, later, laterTold, inner, keyRan, moreRan, _, _, rfl⟩ :=
      scanKeys_scanned_ok isAt ran
    obtain ⟨complete, shaped⟩ := after _ _ _ keyRan _ _ _ moreRan
    have unjoined := (scan_unjoined files options).1 _ _ _ _ _ _ _ keyRan
    have here := collapse_wellShaped unjoined (inside _ _ _ keyRan)
    exact ⟨by simp [complete], List.forall_mem_cons.mpr ⟨here, shaped⟩⟩

end Interpolation

open Interpolation Directive in
/-- Every interpolation that goes through gives a well-shaped fragment. No lookup
is ever left without keys: where its keys are scanned and are not the single one
of the convention, there is an explicit lookup, and it is the one that is built. -/
theorem interpolate_wellShaped (files : Files) (options : Options) :
    (∀ text value, (interpolate files options text).result = .ok value → WellShaped value) ∧
    ∀ text name keys, (read text).directive.shape? = some (.lookup name keys) →
      ∀ used base found, (scanKeys files options used base keys).result = .ok found →
        found.length ≠ 1 → explicit name found = some ((Shape.lookup name keys).build found) := by
  constructor
  · intro text value ran
    obtain ⟨events, parts, rfl, scanned⟩ := interpolate_ok ran
    exact collapse_wellShaped ((scan_unjoined files options).1 _ _ _ _ _ _ _ scanned)
      ((scan_wellShaped files options).1 _ _ _ _ _ _ _ scanned)
  · intro text name keys shaped used base found ran several
    have complete : found.length = keys.length := by
      generalize keysRan : scanKeys files options used base keys = run at ran
      obtain ⟨inclusions, events, result⟩ := run
      cases ran
      exact ((scan_wellShaped files options).2 _ _ _ _ _ _ keysRan).1
    cases read_readable shaped with
    | lookup named keyed =>
      match found with
      | [] => exact absurd (List.length_eq_zero_iff.mp complete.symm) keyed
      | [key] => exact absurd rfl several
      | first :: second :: more => rfl

open Interpolation Directive in
/-- A lookup by convention in a key of an explicit one, beside an attribute whose
path holds braces. -/
theorem interpolate_wellShaped_nested_lookup :
    let files : Files := fun _ => .error .notFound
    let text := ['@', '{', 'A', '.', '{', '}', '}', '@', 'M', '[', '@', 'N', '[', 'k', ']', ',', 'x', ']']
    let value := .join [.attributeOf ['A'] ['{', '}'],
      .lookup ['M'] [.byConvention ['N'] (.literal ['k']), .literal ['x']]]
    (interpolate files {} text).result = .ok value ∧ WellShaped value ∧
      explicit ['M'] [.reference ['A'], .literal ['x']] =
        some (.lookup ['M'] [.reference ['A'], .literal ['x']]) := by
  intro files text value
  have ran : (interpolate files {} text).result = .ok value := by cbv
  obtain ⟨shaped, present⟩ := interpolate_wellShaped files {}
  refine ⟨ran, shaped text value ran, ?_⟩
  exact present ['M', '[', '@', 'A', ',', 'x', ']'] ['M'] [⟨0, ['@', 'A']⟩, ⟨3, ['x']⟩] (by cbv) 0 0 _
    (by cbv) (by decide)

end StackTemplate
