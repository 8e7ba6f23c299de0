import StackTemplate.Fragment.Display
import StackTemplate.Proofs.FragmentCollapse

/-! Joins within joins. A join and the joins in it list one sequence together;
flattening makes that sequence the only one. The source text of a fragment shows
the flat sequence and nothing of how it was joined. -/
namespace StackTemplate.Fragment

mutual

/-- The sequence that a fragment stands for, joins within joins taken apart and
the keys of lookups flattened. -/
def spread : Fragment → List Fragment
  | lookup map keys => [lookup map (flattenAll keys)]
  | join parts => spreadAll parts
  | part => [part]

/-- The sequences of several fragments, one after the other. -/
def spreadAll : List Fragment → List Fragment
  | [] => []
  | part :: parts => spread part ++ spreadAll parts

/-- Several fragments, each flattened. -/
def flattenAll : List Fragment → List Fragment
  | [] => []
  | part :: parts => collapse (spread part) :: flattenAll parts

end

/-- The same fragment with no join within a join. -/
def flatten (fragment : Fragment) : Fragment :=
  collapse (spread fragment)

/-- Fragments in which no join stands directly within a join. -/
inductive Flat : Fragment → Prop where
  | literal (text : Text) : Flat (literal text)
  | reference (name : Text) : Flat (reference name)
  | attributeOf (name path : Text) : Flat (attributeOf name path)
  | lookup {map : Text} {keys : List Fragment} (flat : ∀ key ∈ keys, Flat key) : Flat (lookup map keys)
  | join {parts : List Fragment} (flat : ∀ part ∈ parts, Flat part) (unjoined : Unjoined parts) :
      Flat (join parts)

theorem flattenAll_eq_map (parts : List Fragment) : flattenAll parts = parts.map flatten := by
  induction parts with
  | nil => rfl
  | cons part parts ih => rw [flattenAll, ih, List.map_cons, flatten]

theorem letters_spreadAll_eq_flatMap (parts : List Fragment) :
    letters (spreadAll parts) = parts.flatMap fun part => letters (spread part) := by
  induction parts with
  | nil => rfl
  | cons part parts ih => rw [spreadAll, letters_append, ih, List.flatMap_cons]

/-- Collapsing a sequence leaves the word of its flat sequence as it is. -/
theorem letters_spread_collapse (parts : List Fragment) :
    letters (spread (collapse parts)) = letters (spreadAll parts) := by
  rw [letters_spreadAll_eq_flatMap]
  exact @collapse_additive _ (fun part => letters (spread part)) rfl (by simp [spread, letters])
    letters_spreadAll_eq_flatMap parts

theorem escape_append (first second : Text) : escape (first ++ second) = escape first ++ escape second :=
  List.flatMap_append

theorem escape_cons (c : Char) (text : Text) : escape (c :: text) = escape [c] ++ escape text :=
  escape_append [c] text

theorem escape_character {c : Char} (plain : c ≠ '@') : escape [c] = [c] := by
  simp [escape, plain]

/-- Collapsing a sequence leaves its source text as it is. -/
theorem display_collapse (parts : List Fragment) :
    display (collapse parts) = (displayAll parts).flatten := by
  have listed (parts : List Fragment) : (displayAll parts).flatten = parts.flatMap display := by
    rw [displayAll_eq_map, List.flatMap_def]
  rw [listed]
  exact collapse_additive rfl escape_append listed parts

private theorem mem_prepend {part other : Fragment} {parts : List Fragment}
    (member : other ∈ prepend part parts) :
    other.isLiteral = true ∨ other = part ∨ other ∈ parts := by
  obtain ⟨rfl, same⟩ | ⟨text, next, more, _, rfl, rfl, same⟩ | ⟨_, same⟩ := prepend_cases part parts
  · exact .inr (.inr (same ▸ member))
  · rcases List.mem_cons.mp (same ▸ member) with rfl | later
    · exact .inl rfl
    · exact .inr (.inr (List.mem_cons_of_mem _ later))
  · exact .inr (List.mem_cons.mp (same ▸ member))

/-- Merging makes up nothing but literals. -/
theorem mem_merge {part : Fragment} {parts : List Fragment} (member : part ∈ merge parts) :
    part.isLiteral = true ∨ part ∈ parts := by
  induction parts with
  | nil => cases member
  | cons first parts ih =>
    rcases mem_prepend member with isText | rfl | later
    · exact .inl isText
    · exact .inr (by simp)
    · exact (ih later).imp_right (List.mem_cons_of_mem _)

/-- An expression that is no join only comes out of a sequence that it stands in. -/
theorem mem_of_collapse_eq {part : Fragment} {parts : List Fragment} (collapsed : collapse parts = part)
    (expression : part.isLiteral = false) (unjoined : ∀ inner, part ≠ join inner) : part ∈ parts := by
  have merged : part ∈ merge parts := by
    unfold collapse at collapsed
    cases found : merge parts with
    | nil =>
      rw [found] at collapsed
      subst collapsed
      cases expression
    | cons first more =>
      rw [found] at collapsed
      cases more with
      | nil => simp [← collapsed, ofMerged]
      | cons second more => exact absurd collapsed.symm (unjoined _)
  rcases mem_merge merged with isText | member
  · cases expression.symm.trans isText
  · exact member

theorem spread_of_flat {part : Fragment} (unjoined : ∀ inner, part ≠ join inner)
    (same : flatten part = part) : spread part = [part] := by
  cases part with
  | literal text => rfl
  | reference name => rfl
  | attributeOf name path => rfl
  | lookup map keys =>
    have whole : lookup map (flattenAll keys) = lookup map keys := same
    rw [spread, whole]
  | join parts => exact absurd rfl (unjoined parts)

theorem spreadAll_of_flat {parts : List Fragment} (apart : ∀ part ∈ parts, spread part = [part]) :
    spreadAll parts = parts := by
  induction parts with
  | nil => rfl
  | cons part parts ih =>
    rw [spreadAll, apart part (by simp), ih fun other member => apart other (List.mem_cons_of_mem _ member)]
    rfl

theorem flatten_lookup {map : Text} {keys : List Fragment} (same : ∀ key ∈ keys, flatten key = key) :
    flatten (lookup map keys) = lookup map keys := by
  have all : keys.map flatten = keys := by
    rw [List.map_congr_left same, List.map_id']
  change lookup map (flattenAll keys) = lookup map keys
  rw [flattenAll_eq_map, all]

/-- Flattening leaves a collapsed sequence as it is when nothing in it changes. -/
theorem flatten_collapse {parts : List Fragment} (same : ∀ part ∈ parts, Flat part → flatten part = part)
    (flat : Flat (collapse parts)) : flatten (collapse parts) = collapse parts := by
  have kept {part : Fragment} (member : part ∈ merge parts) (flat : Flat part) : flatten part = part := by
    rcases mem_merge member with isText | inside
    · obtain ⟨text, rfl⟩ := exists_text isText
      cases text <;> rfl
    · exact same part inside flat
  have again : merge (merge parts) = merge parts := foldr_merge parts []
  unfold collapse at flat ⊢
  generalize merge parts = merged at kept flat again ⊢
  match merged with
  | [] => rfl
  | [part] => exact @kept part (by simp) flat
  | first :: second :: more =>
    cases flat with
    | join flatParts unjoined =>
      have apart := spreadAll_of_flat fun part member =>
        spread_of_flat (unjoined part member) (kept member (flatParts part member))
      change flatten (join (first :: second :: more)) = join (first :: second :: more)
      rw [flatten, spread, apart, collapse, again]
      rfl

end StackTemplate.Fragment
