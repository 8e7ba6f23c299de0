import StackTemplate.Proofs.FragmentShape
import StackTemplate.Proofs.KeyContainment

/-! Collapsing is a normal form for words over characters and expressions. An assembly
that is filled step by step ends in the same form, sequences share it exactly when they
spell the same word, and the word alone decides which of the three shapes it has. -/
namespace StackTemplate

namespace Assembly

/-- One addition to an assembly. -/
inductive Addition where
  | text (stretch : Text)
  | character (c : Char)
  | expression (part : Fragment) (isExpression : part.isLiteral = false)

/-- The assembly after an addition. -/
def Addition.apply (assembly : Assembly) : Addition → Assembly
  | text stretch => assembly.addText stretch
  | character c => assembly.addText [c]
  | expression part _ => assembly.addExpression part

/-- What an addition contributes, on its own. -/
def Addition.part : Addition → Fragment
  | text stretch => .literal stretch
  | character c => .literal [c]
  | expression part _ => part

theorem apply_eq_add (assembly : Assembly) (addition : Addition) :
    addition.apply assembly = assembly.add addition.part := by
  cases addition with
  | text stretch => rfl
  | character c => rfl
  | expression part isExpression =>
    cases part with
    | literal text => cases isExpression
    | reference name => rfl
    | attributeOf name path => rfl
    | lookup map keys => rfl
    | join parts => rfl

/-- However text and expressions alternate, the assembly ends in the collapse of what
was added. -/
theorem finish_additions (additions : List Addition) :
    (additions.foldl Addition.apply empty).finish = .collapse (additions.map Addition.part) := by
  rw [← ofFragments_eq_collapse, ofFragments, List.foldl_map]
  congr 2
  funext assembly addition
  exact apply_eq_add assembly addition

end Assembly

namespace Fragment

/-- A collapsed sequence still spells its word. -/
theorem letters_pieces_collapse {parts : List Fragment} (unjoined : Unjoined parts) :
    letters (pieces (collapse parts)) = letters parts := by
  rw [pieces_collapse unjoined, letters_merge]

/-- Sequences collapse to one fragment exactly when they spell one word. -/
theorem collapse_eq_iff {parts others : List Fragment} (unjoined : Unjoined parts)
    (unjoined' : Unjoined others) : collapse parts = collapse others ↔ letters parts = letters others := by
  constructor
  · intro same
    rw [← letters_pieces_collapse unjoined, same, letters_pieces_collapse unjoined']
  · intro same
    rw [← collapse_letters parts, same, collapse_letters]

theorem letters_expression {part : Fragment} (isExpression : part.isLiteral = false) :
    letters [part] = [part] := by
  cases part with
  | literal text => cases isExpression
  | reference name => rfl
  | attributeOf name path => rfl
  | lookup map keys => rfl
  | join parts => rfl

theorem letters_literal (text : Text) : letters [literal text] = text.map fun c => literal [c] := by
  rw [letters, letters, List.append_nil]

theorem unjoined_singleton {part : Fragment} (other : ∀ inner, part ≠ join inner) : Unjoined [part] :=
  List.forall_mem_singleton.mpr other

/-- A word without an expression is the word of one literal. -/
theorem exists_text_of_letters {parts : List Fragment}
    (plain : ∀ letter ∈ letters parts, letter.isLiteral = true) :
    ∃ text, letters parts = letters [literal text] := by
  induction parts with
  | nil => exact ⟨[], rfl⟩
  | cons part parts ih =>
    rw [← List.singleton_append, letters_append] at plain ⊢
    obtain ⟨text, spelled⟩ := ih fun letter member => plain letter (List.mem_append_right _ member)
    cases isText : part.isLiteral with
    | true =>
      obtain ⟨front, rfl⟩ := exists_text isText
      exact ⟨front ++ text, by simp only [spelled, letters_literal, List.map_append]⟩
    | false =>
      have listed : part ∈ letters [part] ++ letters parts := by simp [letters_expression isText]
      cases isText.symm.trans (plain part listed)

/-- A word with an expression and more than one letter collapses to a join. -/
theorem collapse_join {parts : List Fragment}
    (expressive : ∃ letter ∈ letters parts, letter.isLiteral = false)
    (several : (letters parts).length ≠ 1) :
    collapse parts = join (merge parts) ∧ 2 ≤ (merge parts).length := by
  rw [← letters_merge] at expressive several
  unfold collapse
  generalize merge parts = merged at expressive several ⊢
  cases merged with
  | nil =>
    obtain ⟨letter, member, _⟩ := expressive
    cases member
  | cons part more =>
    cases more with
    | cons second more => exact ⟨rfl, by simp⟩
    | nil =>
      cases isText : part.isLiteral with
      | false => simp [letters_expression isText] at several
      | true =>
        obtain ⟨text, rfl⟩ := exists_text isText
        obtain ⟨letter, member, isExpression⟩ := expressive
        rw [letters_literal] at member
        obtain ⟨c, _, rfl⟩ := List.mem_map.mp member
        cases isExpression

/-- Collapsing is a complete normal form. It is what any sequence of additions ends in;
two sequences without joins share it exactly when they spell the same word; and the word
decides its shape: a literal if there is no expression in it, an expression if that is the
only letter, and otherwise a join of two parts or more, in which no literal is empty and
no two stand side by side. -/
theorem collapse_normalForm :
    (∀ additions : List Assembly.Addition, (additions.foldl Assembly.Addition.apply .empty).finish =
      collapse (additions.map Assembly.Addition.part)) ∧
    ∀ parts others, Unjoined parts → Unjoined others →
      (collapse parts = collapse others ↔ letters parts = letters others) ∧
      ((∃ text, collapse parts = literal text) ↔ ∀ letter ∈ letters parts, letter.isLiteral = true) ∧
      (∀ part, part.isLiteral = false → (∀ inner, part ≠ join inner) →
        (collapse parts = part ↔ letters parts = [part])) ∧
      ((∃ letter ∈ letters parts, letter.isLiteral = false) → (letters parts).length ≠ 1 →
        ∃ inner, collapse parts = join inner ∧ 2 ≤ inner.length ∧ literal [] ∉ inner ∧ Apart inner) := by
  refine ⟨Assembly.finish_additions, fun parts others unjoined unjoined' => ?_⟩
  refine ⟨collapse_eq_iff unjoined unjoined', ⟨?_, ?_⟩, ?_, ?_⟩
  · rintro ⟨text, collapsed⟩ letter member
    rw [← collapse_singleton (literal text), collapse_eq_iff unjoined (unjoined_singleton (by simp)),
      letters_literal] at collapsed
    rw [collapsed] at member
    obtain ⟨c, _, rfl⟩ := List.mem_map.mp member
    rfl
  · intro plain
    obtain ⟨text, spelled⟩ := exists_text_of_letters plain
    refine ⟨text, ?_⟩
    rwa [← collapse_singleton (literal text), collapse_eq_iff unjoined (unjoined_singleton (by simp))]
  · intro part isExpression other
    rw [← collapse_singleton part, collapse_eq_iff unjoined (unjoined_singleton other),
      letters_expression isExpression, collapse_singleton]
  · intro expressive several
    obtain ⟨joined, long⟩ := collapse_join expressive several
    exact ⟨_, joined, long, fun empty => (merge_solid unjoined _ empty).1 rfl, merge_apart parts⟩

/-- Text that is cut in different places and holds empty stretches spells one word. -/
theorem collapse_normalForm_recut :
    let parts := [literal ['a'], literal [], literal ['b'], reference ['R'], literal []]
    let others := [literal ['a', 'b'], reference ['R']]
    collapse parts = collapse others ∧ ∃ inner, collapse parts = join inner ∧ Apart inner := by
  intro parts others
  have unjoined : Unjoined parts := by simp [parts, Unjoined]
  have unjoined' : Unjoined others := by simp [others, Unjoined]
  obtain ⟨shared, _, _, joined⟩ := collapse_normalForm.2 parts others unjoined unjoined'
  obtain ⟨inner, same, _, _, apart⟩ :=
    joined ⟨reference ['R'], by simp [parts, letters], rfl⟩ (by simp [parts, letters])
  exact ⟨shared.mpr rfl, inner, same, apart⟩

end Fragment

end StackTemplate
