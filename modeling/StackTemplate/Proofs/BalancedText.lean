import Mathlib
import StackTemplate.Directive.Nesting

/-! Text that delimiters can be put around. Matching one kind of delimiter walks
past balanced text, and cutting at commas walks past text whose commas all stand
inside delimiters, so both find the ends that were meant. -/
namespace StackTemplate

namespace Text

/-- Neither end of the text is a blank. -/
def Tight (text : Text) : Prop :=
  (∀ c ∈ text.head?, isBlank c = false) ∧ ∀ c ∈ text.getLast?, isBlank c = false

instance (text : Text) : Decidable (Tight text) :=
  decidable_of_iff (text.head?.all (!isBlank ·) = true ∧ text.getLast?.all (!isBlank ·) = true) (by
    simp only [Tight, Option.all_eq_true, Bool.not_eq_true', Option.mem_def])

theorem isBlank_not_delimiter {c : Char} (blank : isBlank c = true) : c ∉ ['[', ']', '{', '}'] := by
  intro delimits
  simp only [List.mem_cons, List.not_mem_nil, or_false] at delimits
  rcases delimits with rfl | rfl | rfl | rfl <;> cases blank

/-- Only the outermost characters matter. -/
theorem tight_append {first second : Text} (middle : Text) (firstFull : first ≠ [])
    (secondFull : second ≠ []) (head : ∀ c ∈ first.head?, isBlank c = false)
    (last : ∀ c ∈ second.getLast?, isBlank c = false) : Tight (first ++ middle ++ second) := by
  obtain ⟨c, first, rfl⟩ := List.exists_cons_of_ne_nil firstFull
  obtain ⟨later, d, rfl⟩ := (List.eq_nil_or_concat second).resolve_left secondFull
  refine ⟨by simpa using head, ?_⟩
  rw [List.getLast?_append]
  simpa using last

private theorem dropWhile_blank_append {lead : Text} (blank : ∀ c ∈ lead, isBlank c = true)
    {text : Text} (head : ∀ c ∈ text.head?, isBlank c = false) :
    (lead ++ text).dropWhile isBlank = text := by
  rw [List.dropWhile_append_of_pos blank]
  cases text with
  | nil => rfl
  | cons c text => rw [List.dropWhile_cons_of_neg (by simp [head c rfl])]

theorem leadingBlanks_append {lead : Text} (blank : ∀ c ∈ lead, isBlank c = true)
    {text : Text} (head : ∀ c ∈ text.head?, isBlank c = false) :
    leadingBlanks (lead ++ text) = lead := by
  unfold leadingBlanks
  rw [List.takeWhile_append_of_pos blank]
  cases text with
  | nil => simp
  | cons c text => simp [head c rfl]

/-- Trimming takes away exactly the blanks around a tight text. -/
theorem trim_padded {lead text trail : Text} (leadBlank : ∀ c ∈ lead, isBlank c = true)
    (tight : Tight text) (trailBlank : ∀ c ∈ trail, isBlank c = true) :
    trim (lead ++ text ++ trail) = text := by
  have back : ((text ++ trail).reverse.dropWhile isBlank).reverse = text := by
    rw [List.reverse_append, dropWhile_blank_append (by simpa using trailBlank), List.reverse_reverse]
    simpa using tight.2
  unfold trim trimEnd trimStart
  cases text with
  | cons c text =>
    rw [List.append_assoc, dropWhile_blank_append leadBlank (by simpa using tight.1), back]
  | nil =>
    have nothing : (lead ++ trail).dropWhile isBlank = [] := by
      have blank : ∀ c ∈ lead ++ trail, isBlank c = true := by
        intro c member
        exact (List.mem_append.mp member).elim (leadBlank c) (trailBlank c)
      simpa using dropWhile_blank_append blank (by simp : ∀ c ∈ ([] : Text).head?, isBlank c = false)
    simp [nothing]

/-- A text with blanks put around it. -/
def Padded (piece text : Text) : Prop :=
  ∃ before after, (∀ c ∈ before, isBlank c = true) ∧ (∀ c ∈ after, isBlank c = true) ∧
    piece = before ++ text ++ after

private theorem trimStart_eq (text : Text) :
    trimStart text = trim text ++ ((trimStart text).reverse.takeWhile isBlank).reverse := by
  rw [trim, trimEnd, ← List.reverse_append, List.takeWhile_append_dropWhile, List.reverse_reverse]

/-- Nothing but blanks is trimmed off. -/
theorem exists_padding (text : Text) :
    ∃ trail, text = leadingBlanks text ++ trim text ++ trail ∧
      (∀ c ∈ leadingBlanks text, isBlank c = true) ∧ ∀ c ∈ trail, isBlank c = true := by
  have kept {c : Char} {cs : Text} (member : c ∈ cs.takeWhile isBlank) : isBlank c = true :=
    List.all_eq_true.mp List.all_takeWhile c member
  have front : text = leadingBlanks text ++ trimStart text := List.takeWhile_append_dropWhile.symm
  refine ⟨((trimStart text).reverse.takeWhile isBlank).reverse, ?_, fun c => kept, fun c member => ?_⟩
  · rw [List.append_assoc, ← trimStart_eq, ← front]
  · exact kept (List.mem_reverse.mp member)

theorem trim_isInfix (text : Text) : trim text <:+: text := by
  obtain ⟨trail, whole, _, _⟩ := exists_padding text
  exact ⟨leadingBlanks text, trail, whole.symm⟩

/-- A trimmed text does not end in a blank. -/
theorem last_trim (text : Text) : ∀ c ∈ (trim text).getLast?, isBlank c = false := by
  intro c last
  have stops := List.head?_dropWhile_not isBlank (trimStart text).reverse
  rw [trim, trimEnd, List.getLast?_reverse, Option.mem_def] at last
  rw [last] at stops
  simpa using stops

/-- Trimming leaves no blank at either end. -/
theorem tight_trim (text : Text) : Tight (trim text) := by
  refine ⟨fun c first => ?_, last_trim text⟩
  have stops := List.head?_dropWhile_not isBlank text
  have head : (text.dropWhile isBlank).head? = some c := by
    change (trimStart text).head? = some c
    rw [trimStart_eq, List.head?_append, Option.mem_def.mp first, Option.some_or]
  rw [head] at stops
  simpa using stops

end Text

namespace Directive

/-- The depth after a character, unless it closes more than is open. -/
def depthStep (delimiter : Delimiter) (depth : Nat) (c : Char) : Option Nat :=
  if c = delimiter.opener then some (depth + 1)
  else if c = delimiter.closer then
    match depth with
    | 0 => none
    | depth + 1 => some depth
  else some depth

/-- The depth that a text leaves behind, unless it closes more than was open. -/
def depthThrough (delimiter : Delimiter) (depth : Nat) (text : Text) : Option Nat :=
  text.foldlM (depthStep delimiter) depth

/-- Every opener is closed and no closer stands alone. -/
def Balanced (delimiter : Delimiter) (text : Text) : Prop :=
  depthThrough delimiter 0 text = some 0

instance (delimiter : Delimiter) (text : Text) : Decidable (Balanced delimiter text) :=
  inferInstanceAs (Decidable (_ = _))

private theorem closing_step {delimiter : Delimiter} {depth later : Nat} {c : Char}
    (step : depthStep delimiter depth c = some later) (rest : Text) :
    closing delimiter.opener delimiter.closer depth (c :: rest) =
      (closing delimiter.opener delimiter.closer later rest).map (enclose c) := by
  unfold depthStep at step
  rw [closing.eq_def]
  dsimp only
  split at step
  · next opens =>
    cases step
    rw [if_pos opens]
  · next plain =>
    rw [if_neg plain]
    split at step
    · next closes =>
      rw [if_pos closes]
      cases depth with
      | zero => cases step
      | succ depth =>
        cases step
        rfl
    · next inner =>
      cases step
      rw [if_neg inner]

private theorem depthStep_add {delimiter : Delimiter} {depth later : Nat} {c : Char}
    (step : depthStep delimiter depth c = some later) (outer : Nat) :
    depthStep delimiter (depth + outer) c = some (later + outer) := by
  unfold depthStep at step ⊢
  split at step
  · next opens =>
    cases step
    rw [if_pos opens, Nat.add_right_comm]
  · next plain =>
    rw [if_neg plain]
    split at step
    · next closes =>
      rw [if_pos closes]
      cases depth with
      | zero => cases step
      | succ depth =>
        cases step
        rw [Nat.add_right_comm]
    · next inner =>
      cases step
      rw [if_neg inner]

theorem depthThrough_append {delimiter : Delimiter} {depth middle : Nat} {first : Text}
    (through : depthThrough delimiter depth first = some middle) (second : Text) :
    depthThrough delimiter depth (first ++ second) = depthThrough delimiter middle second := by
  simp only [depthThrough, List.foldlM_append] at through ⊢
  rw [through]
  rfl

/-- What a text does to the depth does not depend on how deep it stands. -/
theorem depthThrough_add {delimiter : Delimiter} {depth later : Nat} {text : Text}
    (through : depthThrough delimiter depth text = some later) (outer : Nat) :
    depthThrough delimiter (depth + outer) text = some (later + outer) := by
  induction text generalizing depth with
  | nil =>
    cases through
    rfl
  | cons c text ih =>
    obtain ⟨middle, step, after⟩ := Option.bind_eq_some_iff.mp through
    exact Option.bind_eq_some_iff.mpr ⟨middle + outer, depthStep_add step outer, ih after⟩

theorem Balanced.append {delimiter : Delimiter} {first second : Text}
    (balanced : Balanced delimiter first) (after : Balanced delimiter second) :
    Balanced delimiter (first ++ second) :=
  (depthThrough_append balanced second).trans after

/-- Balanced text in front makes no difference to the balance of what follows. -/
theorem Balanced.of_append {delimiter : Delimiter} {first second : Text}
    (front : Balanced delimiter first) (whole : Balanced delimiter (first ++ second)) :
    Balanced delimiter second :=
  (depthThrough_append front second).symm.trans whole

/-- Nor does balanced text behind. -/
theorem Balanced.of_append_left {delimiter : Delimiter} {first second : Text}
    (back : Balanced delimiter second) (whole : Balanced delimiter (first ++ second)) :
    Balanced delimiter first := by
  rw [Balanced, depthThrough, List.foldlM_append] at whole
  obtain ⟨middle, through, after⟩ := Option.bind_eq_some_iff.mp whole
  have kept : depthThrough delimiter (0 + middle) second = some (0 + middle) :=
    depthThrough_add back middle
  rw [Nat.zero_add] at kept
  cases kept.symm.trans after
  exact through

theorem balanced_of_free {delimiter : Delimiter} {text : Text}
    (free : ∀ c ∈ text, c ≠ delimiter.opener ∧ c ≠ delimiter.closer) : Balanced delimiter text := by
  induction text with
  | nil => rfl
  | cons c text ih =>
    obtain ⟨notOpener, notCloser⟩ := free c (by simp)
    have step : depthStep delimiter 0 c = some 0 := by simp [depthStep, notOpener, notCloser]
    exact Option.bind_eq_some_iff.mpr
      ⟨0, step, ih fun d member => free d (List.mem_cons_of_mem _ member)⟩

/-- Balanced pieces stay balanced with commas between them. -/
theorem Balanced.intercalate {delimiter : Delimiter} {pieces : List Text}
    (balanced : ∀ piece ∈ pieces, Balanced delimiter piece) :
    Balanced delimiter ([','].intercalate pieces) := by
  have comma : Balanced delimiter [','] := by cases delimiter <;> decide
  induction pieces with
  | nil => rfl
  | cons piece pieces ih =>
    obtain ⟨here, later⟩ := List.forall_mem_cons.mp balanced
    cases pieces with
    | nil => simpa using here
    | cons next pieces =>
      rw [List.intercalate_cons_cons]
      exact (here.append comma).append (ih later)

/-- Matching walks past a text as its depth says. -/
theorem closing_through {delimiter : Delimiter} {depth later : Nat} {text : Text}
    (through : depthThrough delimiter depth text = some later) (rest : Text) :
    closing delimiter.opener delimiter.closer depth (text ++ rest) =
      (closing delimiter.opener delimiter.closer later rest).map
        fun found => (text ++ found.1, found.2) := by
  induction text generalizing depth with
  | nil =>
    cases through
    simp
  | cons c text ih =>
    obtain ⟨middle, step, after⟩ := Option.bind_eq_some_iff.mp through
    rw [List.cons_append, closing_step step, ih after, Option.map_map]
    rfl

private theorem depthThrough_closing {delimiter : Delimiter} {depth : Nat} {text inside rest : Text}
    (closed : closing delimiter.opener delimiter.closer depth text = some (inside, rest)) :
    depthThrough delimiter depth inside = some 0 := by
  induction text generalizing depth inside with
  | nil => cases closed
  | cons c text ih =>
    cases step : depthStep delimiter depth c with
    | some later =>
      rw [closing_step step] at closed
      obtain ⟨⟨inner, tail⟩, here, same⟩ := Option.map_eq_some_iff.mp closed
      cases same
      exact Option.bind_eq_some_iff.mpr ⟨later, step, ih here⟩
    | none =>
      have matching : c ≠ delimiter.opener ∧ c = delimiter.closer ∧ depth = 0 := by
        unfold depthStep at step
        split at step
        · cases step
        · next plain =>
          split at step
          · next closes =>
            cases depth with
            | zero => exact ⟨plain, closes, rfl⟩
            | succ depth => cases step
          · cases step
      obtain ⟨plain, closes, rfl⟩ := matching
      rw [closing, if_neg plain, if_pos closes] at closed
      cases closed
      rfl

/-- What a pair of delimiters encloses is balanced. -/
theorem balanced_enclosed {delimiter : Delimiter} {text inside rest : Text}
    (closed : enclosed delimiter text = some (inside, rest)) : Balanced delimiter inside :=
  depthThrough_closing closed

/-- A closer after balanced text is the one that matches. -/
theorem enclosed_balanced {delimiter : Delimiter} {text : Text} (balanced : Balanced delimiter text)
    (rest : Text) : enclosed delimiter (text ++ delimiter.closer :: rest) = some (text, rest) := by
  have distinct : delimiter.closer ≠ delimiter.opener := by cases delimiter <;> decide
  rw [enclosed, closing_through balanced]
  simp [closing, distinct]

/-- Delimiters around balanced text leave it balanced. -/
theorem Balanced.wrap {delimiter : Delimiter} {text : Text} (balanced : Balanced delimiter text)
    (around : Delimiter) : Balanced delimiter (around.opener :: text ++ [around.closer]) := by
  by_cases same : around = delimiter
  · subst same
    have distinct : around.closer ≠ around.opener := by cases around <;> decide
    have opens : depthStep around 0 around.opener = some 1 := by simp [depthStep]
    have closes : depthStep around 1 around.closer = some 0 := by simp [depthStep, distinct]
    have inside : depthThrough around 1 text = some 1 := by simpa using depthThrough_add balanced 1
    have through : depthThrough around 0 (around.opener :: text) = some 1 :=
      Option.bind_eq_some_iff.mpr ⟨1, opens, inside⟩
    refine (depthThrough_append through [around.closer]).trans ?_
    exact Option.bind_eq_some_iff.mpr ⟨0, closes, rfl⟩
  · have opener : Balanced delimiter [around.opener] :=
      balanced_of_free (by cases around <;> cases delimiter <;> simp_all [Delimiter.opener, Delimiter.closer])
    have closer : Balanced delimiter [around.closer] :=
      balanced_of_free (by cases around <;> cases delimiter <;> simp_all [Delimiter.opener, Delimiter.closer])
    exact (opener.append balanced).append closer

/-- The depth after a character, unless it is a comma to cut at. -/
def commaStep (depth : Nat) (c : Char) : Option Nat :=
  if c = ',' ∧ depth = 0 then none else some (depthAfter depth c)

/-- Text whose delimiters match each other, and whose commas stand inside
delimiters when the text itself stands at least `least` deep. -/
structure Nested (least : Nat) (text : Text) : Prop where
  balanced : ∀ delimiter, Balanced delimiter text
  commas : ∀ depth, least ≤ depth → text.foldlM commaStep depth = some depth

namespace Nested

theorem nil (least : Nat) : Nested least [] :=
  ⟨fun _ => rfl, fun _ _ => rfl⟩

theorem append {least : Nat} {first second : Text} (nested : Nested least first)
    (after : Nested least second) : Nested least (first ++ second) := by
  refine ⟨fun delimiter => (nested.balanced delimiter).append (after.balanced delimiter), ?_⟩
  intro depth deep
  rw [List.foldlM_append, nested.commas depth deep]
  exact after.commas depth deep

theorem deeper {least : Nat} {text : Text} (nested : Nested least text) : Nested (least + 1) text :=
  ⟨nested.balanced, fun depth deep => nested.commas depth (by omega)⟩

/-- Text without delimiters is nested, and its commas only matter at the top. -/
theorem of_free {least : Nat} {text : Text} (free : ∀ c ∈ text, c ∉ ['[', ']', '{', '}'])
    (commas : least = 0 → ',' ∉ text) : Nested least text := by
  refine ⟨fun delimiter => balanced_of_free fun c member => ?_, fun depth deep => ?_⟩
  · have avoided := free c member
    cases delimiter <;> simp_all [Delimiter.opener, Delimiter.closer]
  · induction text with
    | nil => rfl
    | cons c text ih =>
      have avoided := free c (by simp)
      have step : commaStep depth c = some depth := by
        have uncut : ¬(c = ',' ∧ depth = 0) := by
          rintro ⟨rfl, rfl⟩
          exact commas (by omega) (by simp)
        simp_all [commaStep, depthAfter]
      refine Option.bind_eq_some_iff.mpr ⟨depth, step, ih (fun d member => free d (by simp [member])) ?_⟩
      exact fun top member => commas top (List.mem_cons_of_mem _ member)

theorem of_blank {text : Text} (blank : ∀ c ∈ text, Text.isBlank c = true) : Nested 0 text := by
  refine .of_free (fun c member => Text.isBlank_not_delimiter (blank c member)) fun _ member => ?_
  cases blank ',' member

/-- What may stand one level deeper may stand between delimiters. -/
theorem wrap {least : Nat} {text : Text} (nested : Nested (least + 1) text) (around : Delimiter) :
    Nested least (around.opener :: text ++ [around.closer]) := by
  refine ⟨fun delimiter => (nested.balanced delimiter).wrap around, fun depth deep => ?_⟩
  have opens : commaStep depth around.opener = some (depth + 1) := by
    cases around <;> simp [commaStep, depthAfter, Delimiter.opener]
  have closes : commaStep (depth + 1) around.closer = some depth := by
    cases around <;> simp [commaStep, depthAfter, Delimiter.closer]
  have inside := nested.commas (depth + 1) (by omega)
  simp [List.foldlM_cons, List.foldlM_append, opens, inside, closes]

end Nested

/-- Cutting at commas walks past a text that none of its commas cuts. -/
theorem cutAtCommas_through {depth later : Nat} {text : Text}
    (through : text.foldlM commaStep depth = some later) (rest : Text) :
    cutAtCommas depth (text ++ rest) = text.foldr extendFirst (cutAtCommas later rest) := by
  induction text generalizing depth with
  | nil =>
    cases through
    rfl
  | cons c text ih =>
    obtain ⟨middle, step, after⟩ := Option.bind_eq_some_iff.mp through
    unfold commaStep at step
    split at step
    · cases step
    · next uncut =>
      cases step
      rw [List.cons_append, cutAtCommas, if_neg uncut, ih after, List.foldr_cons]

theorem foldr_extendFirst (text piece : Text) (pieces : List Text) :
    text.foldr extendFirst (piece :: pieces) = (text ++ piece) :: pieces := by
  induction text with
  | nil => rfl
  | cons c text ih => rw [List.foldr_cons, ih, extendFirst, List.cons_append]

private theorem texts_keysFrom (start : Nat) (pieces : List Text) :
    (keysFrom start pieces).map Key.text = pieces.map Text.trim := by
  induction pieces generalizing start with
  | nil => rfl
  | cons piece pieces ih => rw [keysFrom, List.map_cons, List.map_cons, ih]

/-- Keys are the pieces between the commas, without the blanks around them. -/
theorem texts_splitKeys (inside : Text) :
    (splitKeys inside).map Key.text = (cutAtCommas 0 inside).map Text.trim :=
  texts_keysFrom 0 _

/-- Pieces that no comma of their own cuts are cut apart again. -/
theorem cutAtCommas_intercalate {pieces : List Text} (full : pieces ≠ [])
    (uncut : ∀ piece ∈ pieces, piece.foldlM commaStep 0 = some 0) :
    cutAtCommas 0 ([','].intercalate pieces) = pieces := by
  induction pieces with
  | nil => exact absurd rfl full
  | cons piece pieces ih =>
    obtain ⟨here, later⟩ := List.forall_mem_cons.mp uncut
    cases pieces with
    | nil =>
      have cut := cutAtCommas_through here []
      rw [cutAtCommas, foldr_extendFirst, List.append_nil] at cut
      rw [List.intercalate_singleton, cut]
    | cons next pieces =>
      have comma (rest : Text) : cutAtCommas 0 ([','] ++ rest) = [] :: cutAtCommas 0 rest := by
        simp [cutAtCommas]
      rw [List.intercalate_cons_cons, List.append_assoc, cutAtCommas_through here, comma,
        ih (List.cons_ne_nil _ _) later, foldr_extendFirst, List.append_nil]

private theorem padded_pieces {pieces texts : List Text} (padded : List.Forall₂ Text.Padded pieces texts)
    (apart : ∀ text ∈ texts, text.foldlM commaStep 0 = some 0 ∧ Text.Tight text) :
    (∀ piece ∈ pieces, piece.foldlM commaStep 0 = some 0) ∧ pieces.map Text.trim = texts := by
  induction padded with
  | nil => simp
  | cons here _ ih =>
    obtain ⟨⟨uncut, tight⟩, later⟩ := List.forall_mem_cons.mp apart
    obtain ⟨restUncut, restTrimmed⟩ := ih later
    obtain ⟨before, after, blankBefore, blankAfter, rfl⟩ := here
    have front := (Nested.of_blank blankBefore).commas 0 (Nat.le_refl 0)
    have back := (Nested.of_blank blankAfter).commas 0 (Nat.le_refl 0)
    refine ⟨List.forall_mem_cons.mpr ⟨?_, restUncut⟩, ?_⟩
    · simp only [List.foldlM_append, front, Option.bind_eq_bind, Option.bind_some, uncut, back]
    · rw [List.map_cons, Text.trim_padded blankBefore tight blankAfter, restTrimmed]

/-- Keys are read back from between commas, whatever blanks are put around them. -/
theorem splitKeys_padded {pieces texts : List Text} (full : pieces ≠ [])
    (padded : List.Forall₂ Text.Padded pieces texts)
    (apart : ∀ text ∈ texts, text.foldlM commaStep 0 = some 0 ∧ Text.Tight text) :
    (splitKeys ([','].intercalate pieces)).map Key.text = texts := by
  obtain ⟨uncut, trimmed⟩ := padded_pieces padded apart
  rw [texts_splitKeys, cutAtCommas_intercalate full uncut, trimmed]

private theorem padded_blank (texts : List Text) :
    List.Forall₂ Text.Padded (texts.map (' ' :: ·)) texts := by
  induction texts with
  | nil => exact .nil
  | cons text texts ih =>
    exact .cons ⟨[' '], [], by simp [Text.isBlank], by simp, by simp⟩ ih

private theorem intercalate_blank (text : Text) (texts : List Text) :
    [',', ' '].intercalate (text :: texts) = [','].intercalate (text :: texts.map (' ' :: ·)) := by
  induction texts generalizing text with
  | nil => rfl
  | cons next texts ih =>
    rw [List.map_cons, List.intercalate_cons_cons, List.intercalate_cons_cons, ih]
    cases texts <;> simp [List.intercalate]

/-- Keys written with a comma and a blank between them are read back. -/
theorem splitKeys_joined {texts : List Text} (full : texts ≠ [])
    (apart : ∀ text ∈ texts, Nested 0 text ∧ Text.Tight text) :
    (splitKeys ([',', ' '].intercalate texts)).map Key.text = texts := by
  obtain ⟨text, texts, rfl⟩ := List.exists_cons_of_ne_nil full
  rw [intercalate_blank]
  have first : Text.Padded text text := ⟨[], [], by simp, by simp, by simp⟩
  refine splitKeys_padded (List.cons_ne_nil _ _) (.cons first (padded_blank texts)) fun other member => ?_
  obtain ⟨nested, tight⟩ := apart other member
  exact ⟨nested.commas 0 (Nat.le_refl 0), tight⟩

theorem Nested.joined {texts : List Text} (apart : ∀ text ∈ texts, Nested 0 text) :
    Nested 1 ([',', ' '].intercalate texts) := by
  induction texts with
  | nil => exact .nil 1
  | cons text texts ih =>
    have here := (apart text (by simp)).deeper
    have later := ih fun other member => apart other (List.mem_cons_of_mem _ member)
    cases texts with
    | nil => simpa [List.intercalate] using here
    | cons next texts =>
      have between : Nested 1 [',', ' '] := .of_free (by simp) (by simp)
      have whole : [',', ' '].intercalate (text :: next :: texts) =
          text ++ [',', ' '] ++ [',', ' '].intercalate (next :: texts) := by
        simp [List.intercalate]
      rw [whole]
      exact (here.append between).append later

end Directive

end StackTemplate
