import StackTemplate.Proofs.DirectiveExtent
import StackTemplate.Proofs.SameNesting
import StackTemplate.Proofs.SourceWeight

/-! What the source text of a result keeps of the text that was read. Both begin
alike, and their delimiters have the same effect around them. The source text never
weighs less than the text that was read, and where it weighs the same that text was
written the way results are: every expression in braces, and no sign in a key that is
taken as it stands. -/
namespace StackTemplate

namespace Fragment
open Directive
open Text (weight)

mutual

/-- The keys of the lookups in a fragment, at any depth. -/
def keysWithin : Fragment → List Fragment
  | lookup _ keys => keys ++ keysAll keys
  | join parts => keysAll parts
  | _ => []

/-- The keys of the lookups in several fragments. -/
def keysAll : List Fragment → List Fragment
  | [] => []
  | part :: parts => keysWithin part ++ keysAll parts

end

theorem keysAll_eq_flatMap (parts : List Fragment) : keysAll parts = parts.flatMap keysWithin := by
  induction parts with
  | nil => rfl
  | cons part parts ih => rw [keysAll, ih, List.flatMap_cons]

theorem keysWithin_subset {part : Fragment} {parts : List Fragment} (member : part ∈ parts) :
    keysWithin part ⊆ keysAll parts := by
  intro key inside
  rw [keysAll_eq_flatMap]
  exact List.mem_flatMap.mpr ⟨part, member, inside⟩

/-- Collapsing a sequence leaves its keys as they are. -/
theorem keysWithin_collapse (parts : List Fragment) : keysWithin (collapse parts) = keysAll parts := by
  rw [keysAll_eq_flatMap]
  exact collapse_additive rfl (fun _ _ => rfl) keysAll_eq_flatMap parts

/-- What holds of every key in a lookup holds of the keys it was given and of the keys
in them, provided that it holds of the reference that the convention supplies. -/
theorem forall_keysWithin_ofKeys {name : Text} {found : List Fragment} {holds : Fragment → Prop}
    (supplied : holds (reference name)) :
    (∀ key ∈ keysWithin (ofKeys name found), holds key) ↔
      ∀ key ∈ found, holds key ∧ ∀ inner ∈ keysWithin key, holds inner := by
  have within : (∀ key ∈ keysWithin (ofKeys name found), holds key) ↔
      ∀ key ∈ found ++ keysAll found, holds key := by
    match found with
    | [] => rfl
    | [key] =>
      change (∀ other ∈ reference name :: ([key] ++ keysAll [key]), holds other) ↔ _
      simp [supplied]
    | first :: second :: more => rfl
  rw [within, keysAll_eq_flatMap]
  simp only [List.mem_append, List.mem_flatMap]
  constructor
  · exact fun all key member =>
      ⟨all key (.inl member), fun inner inside => all inner (.inr ⟨key, member, inside⟩)⟩
  · rintro all key (member | ⟨outer, member, inside⟩)
    · exact (all key member).1
    · exact (all outer member).2 key inside

/-- Doubling signs has no effect on delimiters and commas. -/
theorem sameNesting_escape (text : Text) : SameNesting text (escape text) := by
  induction text with
  | nil => exact .refl []
  | cons c text ih =>
    have here : SameNesting [c] (escape [c]) := by
      by_cases isAt : c = '@'
      · subst isAt
        exact nested_sign.sameNesting (nested_sign.append nested_sign)
      · rw [escape_character isAt]
        exact .refl [c]
    rw [escape_cons]
    exact here.append ih

/-- What the source text of a key that was read is always like. -/
structure KeySpelled (key : Fragment) : Prop where
  full : display key ≠ []
  tight : Text.Tight (display key)
  verbatim : (display key).head? ≠ some '@' → key.isLiteral = true

/-- Keys whose source text can stand in a lookup in braces: its braces are balanced,
and text that holds an `@` begins with one, since it is only scanned then. -/
def KeyWritable (key : Fragment) : Prop :=
  Balanced .brace (display key) ∧
    match key with
    | literal text => '@' ∈ text → text.head? = some '@'
    | _ => True

instance (key : Fragment) : Decidable (KeyWritable key) :=
  match key with
  | literal _ => inferInstanceAs (Decidable (_ ∧ (_ → _)))
  | reference _ => inferInstanceAs (Decidable (_ ∧ True))
  | attributeOf _ _ => inferInstanceAs (Decidable (_ ∧ True))
  | lookup _ _ => inferInstanceAs (Decidable (_ ∧ True))
  | join _ => inferInstanceAs (Decidable (_ ∧ True))

section Reference

variable {name : Text}

theorem keySpelled_reference (name : Text) : KeySpelled (reference name) := by
  have begins : display (reference name) = '@' :: ('{' :: name ++ ['}']) := rfl
  refine ⟨by simp [begins], ⟨by simp [begins, Text.isBlank], ?_⟩, by simp [begins]⟩
  rw [begins, ← List.cons_append, List.getLast?_concat]
  simp [Text.isBlank]

theorem nested_reference (named : IsName name) : Nested 0 (display (reference name)) :=
  nested_delimited named.nested.deeper

theorem keyWritable_reference (named : IsName name) : KeyWritable (reference name) :=
  ⟨(nested_reference named).balanced .brace, trivial⟩

end Reference

/-- What the source text of a fragment keeps of a text that was read as the fragment. -/
structure Echoes (text : Text) (fragment : Fragment) : Prop where
  head : (display fragment).head? = text.head?
  last : (∀ c ∈ text.getLast?, Text.isBlank c = false) →
    ∀ c ∈ (display fragment).getLast?, Text.isBlank c = false
  spelled : ∀ key ∈ keysWithin fragment, KeySpelled key
  nesting : (∀ key ∈ keysWithin fragment, KeyWritable key) →
    SameNesting text (display fragment) ∧ ∀ key ∈ keysWithin fragment, Nested 0 (display key)
  heavier : weight text ≤ weight (display fragment)
  settled : weight text = weight (display fragment) → ∀ key ∈ keysWithin fragment, KeyWritable key

theorem echoes_literal (text : Text) : Echoes text (literal text) where
  head := head_escape text
  last := by
    rw [display, last_escape]
    exact id
  spelled := by simp [keysWithin]
  nesting := fun _ => ⟨sameNesting_escape text, by simp [keysWithin]⟩
  heavier := by
    rw [display, weight_escape]
    omega
  settled := by simp [keysWithin]

theorem echoes_escape : Echoes ['@', '@'] (literal ['@']) where
  head := rfl
  last := fun last => last
  spelled := by simp [keysWithin]
  nesting := fun _ => ⟨.refl _, by simp [keysWithin]⟩
  heavier := Int.le_refl _
  settled := by simp [keysWithin]

theorem echoes_nil : Echoes [] (join []) where
  head := rfl
  last := fun last => last
  spelled := by simp [keysWithin, keysAll]
  nesting := fun _ => ⟨.refl _, by simp [keysWithin, keysAll]⟩
  heavier := Int.le_refl _
  settled := by simp [keysWithin, keysAll]

namespace Echoes

variable {text first second : Text} {part : Fragment} {parts : List Fragment}

/-- A part in front of others. -/
theorem cons (here : Echoes first part) (later : Echoes second (join parts)) :
    Echoes (first ++ second) (join (part :: parts)) := by
  have shown : display (join (part :: parts)) = display part ++ display (join parts) := rfl
  have keys {holds : Fragment → Prop} : (∀ key ∈ keysWithin (join (part :: parts)), holds key) ↔
      (∀ key ∈ keysWithin part, holds key) ∧ ∀ key ∈ keysWithin (join parts), holds key :=
    List.forall_mem_append
  have lighter := here.heavier
  have laterLighter := later.heavier
  constructor
  · rw [shown, List.head?_append, List.head?_append, here.head, later.head]
  · intro ends c isLast
    rw [shown, List.getLast?_append, Option.mem_def, Option.or_eq_some_iff] at isLast
    rw [List.getLast?_append] at ends
    rcases isLast with after | ⟨none, own⟩
    · refine later.last (fun d found => ends d ?_) c after
      rw [Option.mem_def.mp found]
      rfl
    · -- Nothing is shown behind the part, so nothing stood behind it.
      have empty : second = [] := by
        have absent := later.head
        rw [List.getLast?_eq_none_iff.mp none] at absent
        exact List.head?_eq_none_iff.mp absent.symm
      subst empty
      exact here.last (by simpa using ends) c own
  · exact keys.mpr ⟨here.spelled, later.spelled⟩
  · intro writable
    obtain ⟨own, others⟩ := keys.mp writable
    obtain ⟨front, frontNested⟩ := here.nesting own
    obtain ⟨back, backNested⟩ := later.nesting others
    exact ⟨front.append back, keys.mpr ⟨frontNested, backNested⟩⟩
  · rw [shown, Text.weight_append, Text.weight_append]
    omega
  · intro even
    rw [shown, Text.weight_append, Text.weight_append] at even
    exact keys.mpr ⟨here.settled (by omega), later.settled (by omega)⟩

theorem collapse (echoes : Echoes text (join parts)) : Echoes text (Fragment.collapse parts) := by
  have shown : display (Fragment.collapse parts) = display (join parts) := display_collapse parts
  have keys : keysWithin (Fragment.collapse parts) = keysWithin (join parts) := keysWithin_collapse parts
  obtain ⟨head, last, spelled, nesting, heavier, settled⟩ := echoes
  constructor
  all_goals
    simp only [shown, keys]
    assumption

end Echoes

/-- A key and the text it was read from. Text that does not begin with an `@` is taken
as it stands. -/
structure EchoesKey (text : Text) (key : Fragment) : Prop extends Echoes text key where
  verbatim : text.head? ≠ some '@' → key = literal text

namespace EchoesKey

variable {text : Text} {key : Fragment}

theorem keySpelled (echoes : EchoesKey text key) (full : text ≠ []) (tight : Text.Tight text) :
    KeySpelled key := by
  have head := echoes.head
  refine ⟨fun empty => full ?_, ⟨by rw [head]; exact tight.1, echoes.last tight.2⟩, ?_⟩
  · rw [empty] at head
    exact List.head?_eq_none_iff.mp head.symm
  · intro unsigned
    rw [head] at unsigned
    rw [echoes.verbatim unsigned]
    rfl

/-- The piece that a key was trimmed from has the effect of the key's source text. -/
theorem sameNesting {piece : Text} (echoes : EchoesKey (Text.trim piece) key)
    (writable : ∀ inner ∈ keysWithin key, KeyWritable inner) : SameNesting piece (display key) :=
  (sameNesting_trim piece).trans (echoes.nesting writable).1

/-- A key of no more weight than its text can be written if its braces are balanced. -/
theorem keyWritable (echoes : EchoesKey text key) (even : weight text = weight (display key))
    (balanced : Balanced .brace (display key)) : KeyWritable key := by
  refine ⟨balanced, ?_⟩
  have head := echoes.head
  cases key with
  | literal shown =>
    intro member
    by_cases signed : text.head? = some '@'
    · rw [display, head_escape] at head
      exact head.trans signed
    · cases echoes.verbatim signed
      have positive := List.count_pos_iff.mpr member
      rw [display, weight_escape] at even
      omega
  | reference name => trivial
  | attributeOf name path => trivial
  | lookup map keys => trivial
  | join parts => trivial

end EchoesKey

/-- What the source text of an expression keeps of the text it takes between braces,
or after an `@` alone. -/
structure Carries (mode : Mode) (taken : Text) (expression : Fragment) : Prop where
  braced : ∃ body, display expression = delimited body
  spelled : ∀ key ∈ keysWithin expression, KeySpelled key
  nesting : (∀ key ∈ keysWithin expression, KeyWritable key) →
    SameNesting (delimited taken) (display expression) ∧ (mode = .greedy → Nested 0 taken) ∧
      ∀ key ∈ keysWithin expression, Nested 0 (display key)
  heavier : weight taken + 2 ≤ weight (display expression)
  settled : weight taken + 2 = weight (display expression) → Balanced .brace taken →
    ∀ key ∈ keysWithin expression, KeyWritable key

/-- References and attributes are written as they were read, in braces. -/
theorem carries_keyless {mode : Mode} {taken : Text} {expression : Fragment}
    (shown : display expression = delimited taken) (keyless : keysWithin expression = [])
    (flat : mode = .greedy → Nested 0 taken) : Carries mode taken expression where
  braced := ⟨taken, shown⟩
  spelled := by simp [keyless]
  nesting := fun _ => ⟨shown ▸ .refl _, flat, by simp [keyless]⟩
  heavier := by rw [shown, weight_delimited]
  settled := by simp [keyless]

/-- The keys that were read from between brackets, one for each piece between the commas. -/
def Keyed (inside : Text) (found : List Fragment) : Prop :=
  List.Forall₂ (fun piece => EchoesKey (Text.trim piece)) (cutAtCommas 0 inside) found

section Lookup

variable {name inside : Text} {pieces : List Text} {found : List Fragment}

private theorem exists_related {related : Text → Fragment → Prop}
    (all : List.Forall₂ related pieces found) :
    (∀ key ∈ found, ∃ piece ∈ pieces, related piece key) ∧
      ∀ piece ∈ pieces, ∃ key ∈ found, related piece key := by
  induction all with
  | nil => simp
  | @cons piece key pieces found here _ ih =>
    constructor
    · refine List.forall_mem_cons.mpr ⟨⟨piece, by simp, here⟩, fun other member => ?_⟩
      obtain ⟨source, inside, same⟩ := ih.1 other member
      exact ⟨source, List.mem_cons_of_mem _ inside, same⟩
    · refine List.forall_mem_cons.mpr ⟨⟨key, by simp, here⟩, fun other member => ?_⟩
      obtain ⟨target, inside, same⟩ := ih.2 other member
      exact ⟨target, List.mem_cons_of_mem _ inside, same⟩

/-- Keys weigh no less than the pieces they were read from, and where they weigh the
same together they do so one by one. -/
private theorem sum_echoed (echoes : List.Forall₂ (fun piece => EchoesKey (Text.trim piece)) pieces found) :
    let before := (pieces.map fun piece => weight piece - 2).sum
    let after := (found.map fun key => weight (display key) - 2).sum
    before ≤ after ∧ (before = after → List.Forall₂
      (fun piece key => EchoesKey (Text.trim piece) key ∧ weight (Text.trim piece) = weight (display key))
      pieces found) := by
  induction echoes with
  | nil => simp
  | @cons piece key pieces found here later ih =>
    have heavier := here.heavier
    rw [Text.weight_trim] at heavier
    simp only [List.map_cons, List.sum_cons] at ih ⊢
    refine ⟨by omega, fun even => .cons ⟨here, ?_⟩ (ih.2 (by omega))⟩
    rw [Text.weight_trim]
    omega

private theorem weight_taken (named : IsName name) :
    weight (name ++ '[' :: inside ++ [']']) =
      ((cutAtCommas 0 inside).map fun piece => weight piece - 2).sum + 2 := by
  have comma : weight [','] = -2 := rfl
  have cut := Text.weight_intercalate comma (cutAtCommas_ne_nil 0 inside)
  rw [intercalate_cutAtCommas] at cut
  rw [weight_brackets, named.weight, cut]
  omega

theorem nested_ofKeys (named : IsName name) (nested : ∀ key ∈ found, Nested 0 (display key)) :
    Nested 0 (display (ofKeys name found)) := by
  obtain shown | ⟨stem, key, rfl, rfl, shown⟩ := display_ofKeys name found
  · rw [shown]
    exact nested_delimited (nested_bracketed named.nested (by simpa using nested)).deeper
  · have stemmed : Nested 0 stem :=
      nested_of_nameChars fun c member => named.chars c (List.mem_append_left _ member)
    rw [shown]
    refine nested_delimited (nested_bracketed stemmed ?_).deeper
    simpa using nested key (by simp)

/-- Where the text between the brackets is balanced, every key is nested. -/
private theorem nested_keys (keyed : Keyed inside found) (balanced : ∀ delimiter, Balanced delimiter inside)
    (writable : ∀ key ∈ found, ∀ inner ∈ keysWithin key, KeyWritable inner) :
    ∀ key ∈ found, Nested 0 (display key) := by
  intro key member
  obtain ⟨piece, cut, echoes⟩ := (exists_related keyed).1 key member
  have same := echoes.sameNesting (writable key member)
  exact (nested_pieces balanced piece cut).of_sameNesting same.symm

/-- Keys that can be written leave the text between the brackets balanced. -/
private theorem nesting_lookup (named : IsName name) (closed : Balanced .bracket inside)
    (keyed : Keyed inside found) (writable : ∀ key ∈ keysWithin (ofKeys name found), KeyWritable key) :
    Nested 0 (name ++ '[' :: inside ++ [']']) ∧ Nested 0 (display (ofKeys name found)) ∧
      ∀ key ∈ keysWithin (ofKeys name found), Nested 0 (display key) := by
  have keys := (forall_keysWithin_ofKeys (keyWritable_reference named)).mp writable
  have braces : Balanced .brace inside := by
    refine balanced_of_pieces fun piece cut => ?_
    obtain ⟨key, member, echoes⟩ := (exists_related keyed).2 piece cut
    exact (echoes.sameNesting (keys key member).2).balanced (keys key member).1.1
  have balanced := closed.both braces
  have nested := nested_keys keyed balanced fun key member => (keys key member).2
  refine ⟨?_, nested_ofKeys named nested, ?_⟩
  · have inner : Nested 0 ('[' :: inside ++ [']']) := (nested_of_balanced balanced).wrap .bracket
    have whole := named.nested.append inner
    rwa [← List.append_assoc] at whole
  · refine (forall_keysWithin_ofKeys (nested_reference named)).mpr fun key member => ?_
    obtain ⟨piece, cut, echoes⟩ := (exists_related keyed).1 key member
    exact ⟨nested key member, (echoes.nesting (keys key member).2).2⟩

/-- Between braces, keys that weigh as much as the pieces they were read from can be
written. -/
private theorem settled_lookup (named : IsName name) (closed : Balanced .bracket inside)
    (keyed : Keyed inside found) (balanced : Balanced .brace (name ++ '[' :: inside ++ [']']))
    (even : ((cutAtCommas 0 inside).map fun piece => weight piece - 2).sum =
      (found.map fun key => weight (display key) - 2).sum) :
    ∀ key ∈ keysWithin (ofKeys name found), KeyWritable key := by
  have each := (exists_related ((sum_echoed keyed).2 even)).1
  have writable : ∀ key ∈ found, ∀ inner ∈ keysWithin key, KeyWritable inner := by
    intro key member
    obtain ⟨piece, cut, echoes, same⟩ := each key member
    exact echoes.settled same
  have braces : Balanced .brace inside := by
    have opening : Balanced .brace ['['] := rfl
    have closing : Balanced .brace [']'] := rfl
    have front := closing.of_append_left balanced
    exact opening.of_append ((named.nested.balanced .brace).of_append front)
  refine (forall_keysWithin_ofKeys (keyWritable_reference named)).mpr fun key member => ?_
  obtain ⟨piece, cut, echoes, same⟩ := each key member
  have nested := nested_keys keyed (closed.both braces) writable key member
  exact ⟨echoes.keyWritable same (nested.balanced .brace), writable key member⟩

/-- A lookup keeps of its text what its keys keep of theirs. -/
theorem carries_lookup {mode : Mode} (named : IsName name) (closed : Balanced .bracket inside)
    (full : ∀ piece ∈ cutAtCommas 0 inside, Text.trim piece ≠ []) (keyed : Keyed inside found) :
    Carries mode (name ++ '[' :: inside ++ [']']) (ofKeys name found) := by
  have some : found ≠ [] := by
    rintro rfl
    exact cutAtCommas_ne_nil 0 inside (List.forall₂_nil_right_iff.mp keyed)
  have lighter := (sum_echoed keyed).1
  constructor
  · obtain shown | ⟨stem, key, _, _, shown⟩ := display_ofKeys name found
    · exact ⟨_, shown⟩
    · exact ⟨_, shown⟩
  · refine (forall_keysWithin_ofKeys (keySpelled_reference name)).mpr fun key member => ?_
    obtain ⟨piece, cut, echoes⟩ := (exists_related keyed).1 key member
    exact ⟨echoes.keySpelled (full piece cut) (Text.tight_trim piece), echoes.spelled⟩
  · intro writable
    obtain ⟨taken, shown, keys⟩ := nesting_lookup named closed keyed writable
    exact ⟨(nested_delimited taken.deeper).sameNesting shown, fun _ => taken, keys⟩
  · rw [weight_taken named, weight_ofKeys named some]
    omega
  · intro even balanced
    rw [weight_taken named, weight_ofKeys named some] at even
    exact settled_lookup named closed keyed balanced (by omega)

end Lookup

/-- An expression keeps of its text what its keys keep of theirs. -/
theorem carries_build {mode : Mode} {shape : Shape} {taken : Text} {found : List Fragment}
    (spells : Spells mode shape taken)
    (keyed : List.Forall₂ (fun key => EchoesKey key.text) shape.keys found) :
    Carries mode taken (shape.build found) := by
  cases spells with
  | reference named => exact carries_keyless rfl rfl fun _ => named.nested
  | attributeOf named plain =>
    have excluded : ∀ c ∈ ['[', ']', '{', '}', ','], isPathChar c = false := by
      simp [isPathChar, isNameChar]
    have dot : Nested 0 ['.'] := .of_free (by simp) (by simp)
    refine carries_keyless rfl rfl fun greedy => named.nested.append (dot.append (.of_free ?_ ?_))
    · intro c member delimits
      cases (plain greedy c member).symm.trans (excluded c (List.mem_append_left [','] delimits))
    · intro _ member
      cases (plain greedy ',' member).symm.trans (excluded ',' (by simp))
  | lookup named closed full =>
    have both := (List.forall₂_and_left _ _).mpr ⟨full, keyed⟩
    obtain ⟨filled, echoes⟩ := (List.forall₂_and_left _ _).mp
      (@forall₂_pieces _ (fun text key => text ≠ [] ∧ EchoesKey text key) _ _ _ both)
    exact carries_lookup named closed filled echoes

/-- The whole text of an expression is echoed if it begins with an `@`, has the effect
of braces around what the expression takes and weighs no more than they do. -/
theorem Carries.echoes {mode : Mode} {text taken : Text} {expression : Fragment}
    (carries : Carries mode taken expression) (signed : text.head? = some '@')
    (same : (mode = .greedy → Nested 0 taken) → SameNesting text (delimited taken))
    (lighter : weight text ≤ weight taken + 2)
    (balanced : weight text = weight taken + 2 → Balanced .brace taken) : Echoes text expression := by
  obtain ⟨body, shown⟩ := carries.braced
  have heavier := carries.heavier
  constructor
  · rw [shown, signed]
    rfl
  · intro _ c last
    rw [shown, delimited, List.getLast?_concat] at last
    cases last
    decide
  · exact carries.spelled
  · intro writable
    obtain ⟨inBraces, flat, nested⟩ := carries.nesting writable
    exact ⟨(same flat).trans inBraces, nested⟩
  · omega
  · intro even
    exact carries.settled (by omega) (balanced (by omega))

/-- A directive is echoed by what it yields. An expression that was read without braces
has them in its source text, so what was read is lighter. -/
theorem echoes_yield {directive : Directive} {extent : Text} {build : List Fragment → Fragment}
    {found : List Fragment} (takes : Takes directive extent) (yields : directive.yield? = some build)
    (keyed : List.Forall₂ (fun key => EchoesKey key.text) directive.keys found) :
    Echoes ('@' :: extent) (build found) := by
  cases takes with
  | escape => cases yields; exact echoes_escape
  | plain => cases yields; exact echoes_literal ['@']
  | rejected lead shape => cases yields; exact echoes_literal ['@']
  | inclusion path extent => cases yields
  | unclosed delimiter offset => cases yields
  | greedy lead spells =>
    cases yields
    have weighs : weight ('@' :: extent) = 1 + weight extent := Text.weight_append ['@'] extent
    refine (carries_build spells keyed).echoes rfl (fun flat => ?_) (by omega) (by omega)
    exact (nested_sign.append (flat rfl)).sameNesting (nested_delimited (flat rfl).deeper)
  | @delimited shape raw lead closed spells =>
    cases yields
    have weighs : weight (delimited raw) = weight (Text.trim raw) + 2 := by
      rw [weight_delimited, Text.weight_trim]
    refine (carries_build spells keyed).echoes rfl (fun _ => ?_) (Int.le_of_eq weighs) fun _ => ?_
    · exact ((SameNesting.refl ['@', '{']).append (sameNesting_trim raw)).append (.refl ['}'])
    · exact (sameNesting_trim raw).symm.balanced closed

end Fragment

namespace Interpolation
open Fragment

/-- Every scan that goes through without a file is echoed, and so is every key. -/
theorem scan_echoes (files : Files) (options : Options) :
    (∀ used origin position text, ∀ events parts,
      scan files options used origin position text = ⟨[], events, .ok parts⟩ → Echoes text (join parts)) ∧
    ∀ used base keys, ∀ events found,
      scanKeys files options used base keys = ⟨[], events, .ok found⟩ →
      List.Forall₂ (fun key => EchoesKey key.text) keys found := by
  apply scan_induction files options
  case nil =>
    intro used origin position events parts ran
    rw [scan_nil] at ran
    cases ran
    exact echoes_nil
  case text =>
    intro used origin position c text plain ih events parts ran
    rw [scan_text plain] at ran
    obtain ⟨inner, inside, rfl⟩ := Run.map_eq_ok ran
    exact (echoes_literal [c]).cons (ih _ _ inside)
  case unclosed =>
    intro used origin position text delimiter offset extent rest reading events parts ran
    rw [scan_unclosed reading] at ran
    cases ran
  case inclusion =>
    intro used origin position text named extent rest reading _ events parts ran
    obtain ⟨content, later, laterTold, _, _, _, read, _⟩ := scan_inclusion_ok reading ran
    cases read
  case yields =>
    intro used origin position text directive extent rest build reading yields keys after events parts ran
    obtain ⟨read, told, found, later, laterTold, inner, keysRan, inside, both, _, rfl⟩ :=
      scan_yields_ok reading yields ran
    obtain ⟨rfl, rfl⟩ := List.append_eq_nil_iff.mp both.symm
    have takes := Directive.takes_read text
    have whole := Directive.read_append text
    rw [reading] at takes whole
    have here := echoes_yield takes yields (keys _ _ keysRan)
    have both := here.cons (after _ _ _ keysRan _ _ inside)
    rwa [List.cons_append, whole] at both
  case noKeys =>
    intro used base events found ran
    rw [scanKeys_nil] at ran
    cases ran
    exact .nil
  case literalKey =>
    intro used base key more verbatim ih events found ran
    rw [scanKeys_literal verbatim] at ran
    obtain ⟨inner, inside, rfl⟩ := Run.map_eq_ok ran
    exact .cons ⟨echoes_literal key.text, fun _ => rfl⟩ (ih _ _ inside)
  case scannedKey =>
    intro used base key more isAt here after events found ran
    obtain ⟨read, told, parts, later, laterTold, inner, keyRan, moreRan, both, _, rfl⟩ :=
      scanKeys_scanned_ok isAt ran
    obtain ⟨rfl, rfl⟩ := List.append_eq_nil_iff.mp both.symm
    exact .cons ⟨(here _ _ keyRan).collapse, fun verbatim => absurd isAt verbatim⟩
      (after _ _ _ keyRan _ _ moreRan)

end Interpolation

end StackTemplate
