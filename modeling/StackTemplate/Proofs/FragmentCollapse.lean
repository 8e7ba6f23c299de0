import Mathlib
import StackTemplate.Fragment

/-! A sequence of fragments denotes a word whose letters are characters and
expressions. Merging keeps the word, so how a sequence was cut into literals
while it was read cannot be seen in the fragment it collapses to. -/
namespace StackTemplate.Fragment

/-- The word of a sequence: each literal counts as its characters, every other
fragment as one letter. -/
def letters : List Fragment → List Fragment
  | [] => []
  | literal text :: parts => text.map (fun c => literal [c]) ++ letters parts
  | part :: parts => part :: letters parts

/-- The sequence whose collapse a fragment already is. -/
def pieces : Fragment → List Fragment
  | literal [] => []
  | join parts => parts
  | part => [part]

/-- Sequences in which no join stands directly. -/
def Unjoined (parts : List Fragment) : Prop :=
  ∀ part ∈ parts, ∀ inner, part ≠ join inner

/-- Fragments are proved about with their keys and parts already settled. -/
theorem members_induction {motive : Fragment → Prop} (literal : ∀ text, motive (literal text))
    (reference : ∀ name, motive (reference name))
    (attributeOf : ∀ name path, motive (attributeOf name path))
    (lookup : ∀ map keys, (∀ key ∈ keys, motive key) → motive (lookup map keys))
    (join : ∀ parts, (∀ part ∈ parts, motive part) → motive (join parts))
    (fragment : Fragment) : motive fragment :=
  @Fragment.rec motive (fun parts => ∀ part ∈ parts, motive part) literal reference attributeOf
    lookup join (fun _ member => absurd member List.not_mem_nil)
    (fun _ _ here later => List.forall_mem_cons.mpr ⟨here, later⟩) fragment

theorem exists_text {part : Fragment} (isText : part.isLiteral = true) : ∃ text, part = literal text := by
  cases part with
  | literal text => exact ⟨text, rfl⟩
  | reference name => cases isText
  | attributeOf name path => cases isText
  | lookup map keys => cases isText
  | join inner => cases isText

@[simp] theorem prepend_literal_nil (parts : List Fragment) : prepend (literal []) parts = parts := by
  simp [prepend]

/-- What putting a fragment in front can do: nothing, let two literals grow
together, or put it there. -/
theorem prepend_cases (part : Fragment) (parts : List Fragment) :
    (part = literal [] ∧ prepend part parts = parts) ∨
    (∃ text next more, text ≠ [] ∧ part = literal text ∧ parts = literal next :: more ∧
      prepend part parts = literal (text ++ next) :: more) ∨
    (part ≠ literal [] ∧ prepend part parts = part :: parts) := by
  unfold prepend
  split
  · exact .inl ⟨rfl, rfl⟩
  · next text next more full =>
    exact .inr (.inl ⟨text, next, more, fun empty => full (by rw [empty]), rfl, rfl, rfl⟩)
  · next absent _ => exact .inr (.inr ⟨absent, rfl⟩)

/-- Text may be put in front at once or one stretch after the other. -/
theorem prepend_literal_append (first second : Text) (parts : List Fragment) :
    prepend (literal (first ++ second)) parts =
      prepend (literal first) (prepend (literal second) parts) := by
  cases first with
  | nil => simp
  | cons c first =>
    cases second with
    | nil => simp
    | cons d second =>
      cases parts with
      | nil => simp [prepend]
      | cons part parts => cases part <;> simp [prepend]

theorem merge_cons (part : Fragment) (parts : List Fragment) :
    merge (part :: parts) = prepend part (merge parts) := rfl

/-- One fragment denotes itself. -/
theorem collapse_singleton (part : Fragment) : collapse [part] = part := by
  cases part with
  | literal text => cases text <;> rfl
  | reference name => rfl
  | attributeOf name path => rfl
  | lookup map keys => rfl
  | join parts => rfl

theorem merge_append (first second : List Fragment) :
    merge (first ++ second) = first.foldr prepend (merge second) := by
  simp [merge, List.foldr_append]

private theorem foldr_prepend (part : Fragment) (parts after : List Fragment) :
    (prepend part parts).foldr prepend after = prepend part (parts.foldr prepend after) := by
  obtain ⟨rfl, same⟩ | ⟨text, next, more, _, rfl, rfl, same⟩ | ⟨_, same⟩ := prepend_cases part parts
  · rw [same, prepend_literal_nil]
  · rw [same]
    exact prepend_literal_append text next (more.foldr prepend after)
  · rw [same, List.foldr_cons]

/-- Merging a front part early makes no difference to the whole. -/
theorem foldr_merge (parts after : List Fragment) :
    (merge parts).foldr prepend after = parts.foldr prepend after := by
  induction parts with
  | nil => rfl
  | cons part parts ih => rw [merge_cons, foldr_prepend, ih, List.foldr_cons]

theorem merge_merge_append (first second : List Fragment) :
    merge (merge first ++ merge second) = merge (first ++ second) := by
  have inner : merge (merge second) = merge second := foldr_merge second []
  rw [merge_append, merge_append, foldr_merge, inner]

private theorem foldr_characters (text : Text) (after : List Fragment) :
    (text.map fun c => literal [c]).foldr prepend after = prepend (literal text) after := by
  induction text with
  | nil => simp
  | cons c text ih =>
    rw [List.map_cons, List.foldr_cons, ih]
    exact (prepend_literal_append [c] text after).symm

/-- Merging only looks at the word. -/
theorem merge_letters (parts : List Fragment) : merge (letters parts) = merge parts := by
  induction parts with
  | nil => rfl
  | cons part parts ih =>
    cases part with
    | literal text => rw [letters, merge_append, foldr_characters, ih, merge_cons]
    | reference name => simp [letters, merge_cons, ih]
    | attributeOf name path => simp [letters, merge_cons, ih]
    | lookup map keys => simp [letters, merge_cons, ih]
    | join inner => simp [letters, merge_cons, ih]

theorem letters_append (first second : List Fragment) :
    letters (first ++ second) = letters first ++ letters second := by
  induction first with
  | nil => rfl
  | cons part first ih => cases part <;> simp [letters, ih]

theorem collapse_letters (parts : List Fragment) : collapse (letters parts) = collapse parts := by
  rw [collapse, merge_letters, collapse]

/-- What is listed part by part is listed alike for the fragment that a sequence
collapses to, provided that literals may be cut anywhere. -/
theorem collapse_additive {list : Fragment → List α} (empty : list (literal []) = [])
    (cut : ∀ first second, list (literal (first ++ second)) = list (literal first) ++ list (literal second))
    (joined : ∀ parts, list (join parts) = parts.flatMap list) (parts : List Fragment) :
    list (collapse parts) = parts.flatMap list := by
  have prepended (part : Fragment) (parts : List Fragment) :
      (prepend part parts).flatMap list = list part ++ parts.flatMap list := by
    obtain ⟨rfl, same⟩ | ⟨text, next, more, _, rfl, rfl, same⟩ | ⟨_, same⟩ := prepend_cases part parts
    · simp [same, empty]
    · simp [same, cut]
    · rw [same, List.flatMap_cons]
  have merged : (merge parts).flatMap list = parts.flatMap list := by
    induction parts with
    | nil => rfl
    | cons part parts ih => rw [merge_cons, prepended, ih, List.flatMap_cons]
  rw [collapse, ← merged]
  cases merge parts with
  | nil => exact empty
  | cons first more =>
    cases more with
    | nil => simp [ofMerged]
    | cons second more => exact joined _

/-- Parts that a merged sequence may hold: no empty literal and no join. -/
def Solid (part : Fragment) : Prop :=
  part ≠ literal [] ∧ ∀ inner, part ≠ join inner

private theorem prepend_solid {part : Fragment} {parts : List Fragment}
    (unjoined : ∀ inner, part ≠ join inner) (solid : ∀ other ∈ parts, Solid other) :
    ∀ other ∈ prepend part parts, Solid other := by
  obtain ⟨rfl, same⟩ | ⟨text, next, more, full, rfl, rfl, same⟩ | ⟨full, same⟩ :=
    prepend_cases part parts
  · rwa [same]
  · rw [same]
    exact List.forall_mem_cons.mpr ⟨by simp [Solid, full], (List.forall_mem_cons.mp solid).2⟩
  · rw [same]
    exact List.forall_mem_cons.mpr ⟨⟨full, unjoined⟩, solid⟩

theorem merge_solid {parts : List Fragment} (unjoined : Unjoined parts) :
    ∀ part ∈ merge parts, Solid part := by
  induction parts with
  | nil => simp [merge]
  | cons part parts ih =>
    exact prepend_solid (unjoined part (by simp))
      (ih fun member inside => unjoined member (List.mem_cons_of_mem _ inside))

/-- The pieces of a collapsed sequence are the merged sequence. -/
theorem pieces_collapse {parts : List Fragment} (unjoined : Unjoined parts) :
    pieces (collapse parts) = merge parts := by
  have solid := merge_solid unjoined
  unfold collapse
  cases merged : merge parts with
  | nil => rfl
  | cons part more =>
    cases more with
    | cons next more => rfl
    | nil =>
      rw [merged] at solid
      obtain ⟨full, unjoined⟩ := solid part (by simp)
      cases part with
      | literal text =>
        cases text with
        | nil => exact absurd rfl full
        | cons c text => rfl
      | reference name => rfl
      | attributeOf name path => rfl
      | lookup map keys => rfl
      | join inner => exact absurd rfl (unjoined inner)

/-- Sequences may be collapsed apart and put together afterwards. -/
theorem collapse_pieces_append {first second : List Fragment} (firstUnjoined : Unjoined first)
    (secondUnjoined : Unjoined second) :
    collapse (pieces (collapse first) ++ pieces (collapse second)) = collapse (first ++ second) := by
  rw [pieces_collapse firstUnjoined, pieces_collapse secondUnjoined, collapse, merge_merge_append,
    collapse]

end StackTemplate.Fragment

namespace StackTemplate.Assembly
open Fragment

private theorem merge_addText (assembly : Assembly) (text : Text) (after : List Fragment) :
    merge ((assembly.addText text).fragments.reverse ++ after) =
      merge (assembly.fragments.reverse ++ literal text :: after) := by
  obtain ⟨closed, run⟩ := assembly
  have joined : merge (literal (run.reverse ++ text) :: after) =
      prepend (literal run.reverse) (merge (literal text :: after)) :=
    prepend_literal_append run.reverse text _
  cases run with
  | nil => cases text <;> simp [addText, fragments, merge_append, merge_cons]
  | cons c run => simp_all [addText, fragments, merge_append, merge_cons]

private theorem merge_add (assembly : Assembly) (part : Fragment) (after : List Fragment) :
    merge ((assembly.add part).fragments.reverse ++ after) =
      merge (assembly.fragments.reverse ++ part :: after) := by
  cases part with
  | literal text => exact merge_addText assembly text after
  | reference name => simp [add, addExpression, fragments]
  | attributeOf name path => simp [add, addExpression, fragments]
  | lookup map keys => simp [add, addExpression, fragments]
  | join inner => simp [add, addExpression, fragments]

private theorem merge_foldl_add (assembly : Assembly) (parts : List Fragment) :
    merge (parts.foldl add assembly).fragments.reverse = merge (assembly.fragments.reverse ++ parts) := by
  induction parts generalizing assembly with
  | nil => simp
  | cons part parts ih => rw [List.foldl_cons, ih, merge_add]

/-- Collecting fragments one at a time gives the collapse of their sequence. -/
theorem ofFragments_eq_collapse (parts : List Fragment) : ofFragments parts = collapse parts := by
  rw [ofFragments, finish, collapse, merge_foldl_add]
  rfl

end StackTemplate.Assembly
