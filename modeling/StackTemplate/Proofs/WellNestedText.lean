import StackTemplate.Proofs.DirectiveShape
import StackTemplate.Proofs.ScanSteps

/-! Text in which brackets and braces are properly nested. Matching looks at one
kind of delimiter and cutting at commas does not tell the two apart, yet in
well-nested text both follow the nesting, so every key that is scanned is well
nested again and no delimiter is ever found open. -/
namespace StackTemplate

namespace Directive

/-- Text whose delimiters are properly nested, other characters aside. -/
inductive WellNested : Text → Prop where
  | nil : WellNested []
  | other {c : Char} {rest : Text} (plain : c ∉ ['[', ']', '{', '}']) (later : WellNested rest) :
      WellNested (c :: rest)
  | pair (delimiter : Delimiter) {inside rest : Text} (inner : WellNested inside)
      (later : WellNested rest) : WellNested (delimiter.opener :: inside ++ delimiter.closer :: rest)

/-- The delimiters that are open after a character, the innermost first, unless it
closes another than the innermost. -/
def openAfter (opened : List Delimiter) (c : Char) : Option (List Delimiter) :=
  if c = '[' then some (.bracket :: opened)
  else if c = '{' then some (.brace :: opened)
  else if c = ']' ∨ c = '}' then
    match opened with
    | [] => none
    | innermost :: outer => if c = innermost.closer then some outer else none
  else some opened

/-- The delimiters that a text leaves open, if it never closes a wrong one. -/
def openThrough (opened : List Delimiter) (text : Text) : Option (List Delimiter) :=
  text.foldlM openAfter opened

theorem openAfter_opener (delimiter : Delimiter) (opened : List Delimiter) :
    openAfter opened delimiter.opener = some (delimiter :: opened) := by
  cases delimiter <;> simp [openAfter, Delimiter.opener]

theorem openAfter_closer (delimiter : Delimiter) (opened : List Delimiter) :
    openAfter (delimiter :: opened) delimiter.closer = some opened := by
  cases delimiter <;> simp [openAfter, Delimiter.closer]

theorem openAfter_other {c : Char} (plain : c ∉ ['[', ']', '{', '}']) (opened : List Delimiter) :
    openAfter opened c = some opened := by
  simp_all [openAfter]

theorem opener_injective {delimiter other : Delimiter} (same : delimiter.opener = other.opener) :
    delimiter = other := by
  cases delimiter <;> cases other <;> simp_all [Delimiter.opener]

/-- What a character can do to the open delimiters. -/
theorem openAfter_cases {opened later : List Delimiter} {c : Char}
    (step : openAfter opened c = some later) :
    (∃ delimiter : Delimiter, c = delimiter.opener ∧ later = delimiter :: opened) ∨
    (∃ delimiter : Delimiter, c = delimiter.closer ∧ opened = delimiter :: later) ∨
    (c ∉ ['[', ']', '{', '}'] ∧ later = opened) := by
  unfold openAfter at step
  split at step
  · next bracket =>
    cases step
    exact .inl ⟨.bracket, bracket, rfl⟩
  · split at step
    · next brace =>
      cases step
      exact .inl ⟨.brace, brace, rfl⟩
    · split at step
      · cases opened with
        | nil => cases step
        | cons innermost outer =>
          dsimp only at step
          split at step
          · next closes =>
            cases step
            exact .inr (.inl ⟨innermost, closes, rfl⟩)
          · cases step
      · cases step
        refine .inr (.inr ⟨?_, rfl⟩)
        simp_all

theorem WellNested.through {text : Text} (nested : WellNested text) (opened : List Delimiter) :
    openThrough opened text = some opened := by
  induction nested generalizing opened with
  | nil => rfl
  | other plain later ih =>
    exact Option.bind_eq_some_iff.mpr ⟨opened, openAfter_other plain opened, ih opened⟩
  | @pair delimiter inside rest inner later innerIh laterIh =>
    have closes : openThrough (delimiter :: opened) (inside ++ delimiter.closer :: rest) = some opened := by
      rw [openThrough, List.foldlM_append]
      refine Option.bind_eq_some_iff.mpr ⟨_, innerIh _, ?_⟩
      exact Option.bind_eq_some_iff.mpr ⟨opened, openAfter_closer delimiter opened, laterIh opened⟩
    exact Option.bind_eq_some_iff.mpr ⟨_, openAfter_opener delimiter opened, closes⟩

/-- A text that leaves nothing open closes what was open before it: up to there it
closes only what it opened. The closer comes when `inner`, which the text has opened, is
used up. -/
theorem exists_closer {inner outer : List Delimiter} {delimiter : Delimiter} {text : Text}
    (through : openThrough (inner ++ delimiter :: outer) text = some []) :
    ∃ inside rest, text = inside ++ delimiter.closer :: rest ∧ openThrough inner inside = some [] ∧
      openThrough outer rest = some [] := by
  induction text generalizing inner with
  | nil => simp [openThrough] at through
  | cons c text ih =>
    obtain ⟨later, step, after⟩ := Option.bind_eq_some_iff.mp through
    obtain ⟨opener, rfl, rfl⟩ | ⟨closer, rfl, same⟩ | ⟨plain, rfl⟩ := openAfter_cases step
    · obtain ⟨inside, rest, rfl, within, beyond⟩ := @ih (opener :: inner) after
      exact ⟨opener.opener :: inside, rest, rfl,
        Option.bind_eq_some_iff.mpr ⟨_, openAfter_opener opener inner, within⟩, beyond⟩
    · cases inner with
      | nil =>
        cases same
        exact ⟨[], text, rfl, rfl, after⟩
      | cons innermost inner =>
        cases same
        obtain ⟨inside, rest, rfl, within, beyond⟩ := ih after
        exact ⟨closer.closer :: inside, rest, rfl,
          Option.bind_eq_some_iff.mpr ⟨_, openAfter_closer closer inner, within⟩, beyond⟩
    · obtain ⟨inside, rest, rfl, within, beyond⟩ := ih after
      exact ⟨c :: inside, rest, rfl,
        Option.bind_eq_some_iff.mpr ⟨_, openAfter_other plain inner, within⟩, beyond⟩

theorem wellNested_of_through {text : Text} (through : openThrough [] text = some []) :
    WellNested text := by
  induction length : text.length using Nat.strong_induction_on generalizing text with
  | _ n ih =>
    cases text with
    | nil => exact .nil
    | cons c text =>
      obtain ⟨later, step, after⟩ := Option.bind_eq_some_iff.mp through
      obtain ⟨opener, rfl, rfl⟩ | ⟨closer, rfl, same⟩ | ⟨plain, rfl⟩ := openAfter_cases step
      · obtain ⟨inside, rest, rfl, within, beyond⟩ := @exists_closer [] [] opener text after
        simp only [List.length_cons, List.length_append] at length
        exact .pair opener (ih inside.length (by omega) within rfl) (ih rest.length (by omega) beyond rfl)
      · cases same
      · exact .other plain (ih text.length (by simp [← length]) after rfl)

/-- The nesting of a text can be checked from left to right. -/
theorem wellNested_iff_through {text : Text} : WellNested text ↔ openThrough [] text = some [] :=
  ⟨fun nested => nested.through [], wellNested_of_through⟩

instance (text : Text) : Decidable (WellNested text) :=
  decidable_of_iff (openThrough [] text = some []) wellNested_iff_through.symm

namespace WellNested

/-- Each kind of delimiter is balanced on its own, and one level down no comma cuts. -/
theorem nested {text : Text} (nested : WellNested text) : Nested 1 text := by
  induction nested with
  | nil => exact .nil 1
  | @other c rest plain later ih =>
    have here : Nested 1 [c] := .of_free (by simpa using plain) (by simp)
    exact here.append ih
  | @pair delimiter inside rest inner later innerIh laterIh =>
    have split : delimiter.opener :: inside ++ delimiter.closer :: rest =
        (delimiter.opener :: inside ++ [delimiter.closer]) ++ rest := by simp
    rw [split]
    exact (innerIh.deeper.wrap delimiter).append laterIh

theorem of_free {text : Text} (free : ∀ c ∈ text, c ∉ ['[', ']', '{', '}']) : WellNested text := by
  induction text with
  | nil => exact .nil
  | cons c text ih =>
    obtain ⟨plain, later⟩ := List.forall_mem_cons.mp free
    exact .other plain (ih later)

/-- Blanks around a text make no difference to its nesting. -/
theorem trim {text : Text} (nested : WellNested text) : WellNested (Text.trim text) := by
  obtain ⟨trail, whole, leadBlank, trailBlank⟩ := Text.exists_padding text
  have front : WellNested (Text.leadingBlanks text) :=
    .of_free fun c member => Text.isBlank_not_delimiter (leadBlank c member)
  have back : WellNested trail :=
    .of_free fun c member => Text.isBlank_not_delimiter (trailBlank c member)
  have through := nested.through []
  rw [whole, openThrough, List.foldlM_append, List.foldlM_append] at through
  obtain ⟨later, middle, ended⟩ := Option.bind_eq_some_iff.mp through
  obtain ⟨early, started, kept⟩ := Option.bind_eq_some_iff.mp middle
  cases (front.through []).symm.trans started
  cases (back.through later).symm.trans ended
  exact wellNested_of_through kept

/-- The pieces between the commas outside all delimiters are well nested: a pair stands whole
in its piece, since its commas are one level down. -/
theorem pieces {text : Text} (nested : WellNested text) :
    ∀ piece ∈ cutAtCommas 0 text, WellNested piece := by
  induction nested with
  | nil => exact List.forall_mem_cons.mpr ⟨.nil, by simp⟩
  | @other c rest plain later ih =>
    obtain ⟨first, more, cut⟩ := List.exists_cons_of_ne_nil (cutAtCommas_ne_nil 0 rest)
    have level : depthAfter 0 c = 0 := by simp_all [depthAfter]
    by_cases comma : c = ','
    · rw [cutAtCommas, if_pos ⟨comma, rfl⟩]
      exact List.forall_mem_cons.mpr ⟨.nil, ih⟩
    · rw [cutAtCommas, if_neg (fun both => comma both.1), level, cut, extendFirst]
      rw [cut] at ih
      obtain ⟨here, there⟩ := List.forall_mem_cons.mp ih
      exact List.forall_mem_cons.mpr ⟨.other plain here, there⟩
  | @pair delimiter inside rest inner later innerIh laterIh =>
    obtain ⟨first, more, cut⟩ := List.exists_cons_of_ne_nil (cutAtCommas_ne_nil 0 rest)
    have through := (inner.nested.wrap delimiter).commas 0 (Nat.le_refl 0)
    have split : delimiter.opener :: inside ++ delimiter.closer :: rest =
        (delimiter.opener :: inside ++ [delimiter.closer]) ++ rest := by simp
    rw [split, cutAtCommas_through through, cut, foldr_extendFirst]
    rw [cut] at laterIh
    obtain ⟨here, there⟩ := List.forall_mem_cons.mp laterIh
    refine List.forall_mem_cons.mpr ⟨?_, there⟩
    simpa using WellNested.pair delimiter inner here

/-- The keys between a pair of brackets are well nested when their inside is. -/
theorem keys {inside : Text} (nested : WellNested inside) :
    ∀ key ∈ splitKeys inside, WellNested key.text := by
  intro key member
  obtain ⟨piece, cut, same⟩ := exists_piece member
  rw [same]
  exact (nested.pieces piece cut).trim

end WellNested

/-- Text that closes every delimiter it opens, properly nested. It may close
others that were open before it. -/
inductive Closed : Text → Prop where
  | nil : Closed []
  | single {c : Char} {rest : Text} (opensNone : c ∉ ['[', '{']) (later : Closed rest) : Closed (c :: rest)
  | pair (delimiter : Delimiter) {inside rest : Text} (inner : WellNested inside) (later : Closed rest) :
      Closed (delimiter.opener :: inside ++ delimiter.closer :: rest)

namespace Closed

theorem after_nested {first second : Text} (closed : Closed second) (nested : WellNested first) :
    Closed (first ++ second) := by
  induction nested with
  | nil => exact closed
  | other plain later ih => exact .single (by simp_all) ih
  | pair delimiter inner later innerIh laterIh =>
    rw [List.append_assoc]
    exact .pair delimiter inner laterIh

theorem tail {c : Char} {rest : Text} (closed : Closed (c :: rest)) : Closed rest := by
  cases closed with
  | single opensNone later => exact later
  | pair delimiter inner later =>
    refine after_nested (.single ?_ later) inner
    cases delimiter <;> simp [Delimiter.closer]

/-- The end of a closed text is closed. -/
theorem suffix {first second : Text} (closed : Closed (first ++ second)) : Closed second := by
  induction first with
  | nil => exact closed
  | cons c first ih => exact ih closed.tail

/-- A delimiter opened in a closed text is matched, with well-nested text in between. -/
theorem enclosed {delimiter : Delimiter} {inner : Text} (closed : Closed (delimiter.opener :: inner)) :
    ∃ inside rest, Directive.enclosed delimiter inner = some (inside, rest) ∧ WellNested inside := by
  generalize whole : delimiter.opener :: inner = text at closed
  cases closed with
  | nil => cases whole
  | single opensNone later =>
    cases whole
    exact absurd (by cases delimiter <;> simp [Delimiter.opener]) opensNone
  | @pair own inside rest nested later =>
    obtain ⟨same, rfl⟩ := List.cons.inj whole
    obtain rfl := opener_injective same
    exact ⟨inside, rest, enclosed_balanced (nested.nested.balanced delimiter) rest, nested⟩

end Closed

theorem WellNested.closed {text : Text} (nested : WellNested text) : Closed text := by
  simpa using Closed.after_nested .nil nested

namespace Closed

variable {text : Text}

/-- The stretch that holds an expression closes what it opens, if the text does. -/
theorem body {mode : Mode} {body : Text} (closed : Closed text) (holds : Holds text mode body) :
    Closed body := by
  cases holds with
  | greedy => exact closed
  | delimited opens found =>
    subst opens
    obtain ⟨inside, rest, same, nested⟩ := @enclosed .brace _ closed
    cases found.symm.trans same
    exact nested.trim.closed

/-- A bracket after a name is matched, and what it encloses is well nested. -/
theorem bracket {name inner : Text} (closed : Closed text)
    (split : splitName text = (name, '[' :: inner)) :
    ∃ inside rest, Directive.enclosed .bracket inner = some (inside, rest) ∧ WellNested inside := by
  have whole := splitName_append text
  rw [split] at whole
  rw [← whole] at closed
  exact @enclosed .bracket inner closed.suffix

/-- Nothing is left open by a directive of a closed text. -/
theorem not_unclosed (closed : Closed text) (delimiter : Delimiter) (offset : Nat) :
    (read text).directive ≠ .unclosed delimiter offset := by
  intro unclosed
  have decides := decides_read text
  rw [unclosed] at decides
  cases decides with
  | openBrace opens notClosed =>
    subst opens
    obtain ⟨inside, rest, found, _⟩ := @enclosed .brace _ closed
    cases notClosed.symm.trans found
  | openBracket holds found =>
    obtain ⟨name, inner, split, notClosed, _⟩ := findExpression_unclosed found
    obtain ⟨inside, rest, found, _⟩ := (closed.body holds).bracket split
    cases notClosed.symm.trans found

end Closed

/-- The keys of a directive stand between brackets in the stretch that holds its expression. -/
theorem exists_brackets {text : Text} (keyed : (read text).directive.keys ≠ []) :
    ∃ mode body name inner inside rest, Holds text mode body ∧
      splitName body = (name, '[' :: inner) ∧ Directive.enclosed .bracket inner = some (inside, rest) ∧
      (read text).directive.keys = splitKeys inside := by
  obtain ⟨name, keys, shaped⟩ := shape?_of_keys keyed
  obtain ⟨mode, body, taken, after, holds, found⟩ := exists_found shaped
  obtain ⟨inner, inside, split, closed, rfl, _⟩ := findExpression_lookup found
  exact ⟨mode, body, name, inner, inside, after, holds, split, closed, keys_of_shape? shaped⟩

/-- Every key is a part of the text after its `@`. -/
theorem read_key_isInfix {text : Text} {key : Key} (member : key ∈ (read text).directive.keys) :
    key.text <:+: text := by
  obtain ⟨mode, body, name, inner, inside, rest, holds, split, closed, same⟩ :=
    exists_brackets (List.ne_nil_of_mem member)
  rw [same] at member
  have whole := splitName_append body
  rw [split, enclosed_append closed] at whole
  have part : inside <:+: body := ⟨name ++ ['['], ']' :: rest, by simpa [Delimiter.closer] using whole⟩
  exact (key_isInfix member).trans (part.trans holds.isInfix)

/-- Only text that names the scheme asks for a file. -/
theorem scheme_isInfix {text named : Text} (asks : (read text).directive = .inclusion named) :
    scheme <:+: text := by
  have decides := decides_read text
  rw [asks] at decides
  cases decides with
  | delimitedFile holds found =>
    unfold delimitedPath? at found
    split at found
    · next tail starts =>
      have front : scheme <+: _ := ⟨tail, (Text.after?_eq_some starts).symm⟩
      exact front.isInfix.trans holds.isInfix
    · cases found
  | greedyFile found =>
    unfold greedyPath? at found
    split at found
    · next tail starts => exact ⟨[], tail, (Text.after?_eq_some starts).symm⟩
    · cases found

/-- Keys in a closed text are well nested, whatever brackets and braces stand around them. -/
theorem Closed.keys {text : Text} (closed : Closed text) :
    ∀ key ∈ (read text).directive.keys, WellNested key.text := by
  intro key member
  obtain ⟨mode, body, name, inner, inside, rest, holds, split, found, same⟩ :=
    exists_brackets (List.ne_nil_of_mem member)
  obtain ⟨_, _, foundNested, nested⟩ := (closed.body holds).bracket split
  cases found.symm.trans foundNested
  rw [same] at member
  exact nested.keys key member

end Directive

/-- The only failure is a delimiter left open, and in closed text there is none. -/
def Run.OpenAtWorst (closed : Prop) (run : Run α) : Prop :=
  ∀ error, run.result = .error error →
    (∃ delimiter offset, error = .unterminated delimiter offset) ∧ ¬closed

namespace Run.OpenAtWorst

variable {closed whole : Prop}

theorem ok {inclusions : List Inclusion} {events : List Event} {value : α} :
    OpenAtWorst closed ⟨inclusions, events, .ok value⟩ := by
  intro error ended
  cases ended

theorem map {run : Run α} (worst : run.OpenAtWorst closed) (f : α → β) :
    (run.map f).OpenAtWorst closed := by
  intro error ended
  obtain ⟨inclusions, events, result⟩ := run
  cases result with
  | ok value => cases ended
  | error earlier =>
    cases ended
    exact worst _ rfl

/-- A failure inside a part is one of the whole, if the part is closed whenever the whole is. -/
theorem mono {run : Run α} (worst : run.OpenAtWorst closed) (inherits : whole → closed) :
    run.OpenAtWorst whole := by
  intro error ended
  obtain ⟨known, opened⟩ := worst error ended
  exact ⟨known, opened ∘ inherits⟩

theorem relocate {inclusions : List Inclusion} {events : List Event} {error : Error}
    (worst : OpenAtWorst closed (⟨inclusions, events, .error error⟩ : Run α)) (origin : Origin) :
    OpenAtWorst closed (⟨inclusions, events, .error (origin.relocate error)⟩ : Run β) := by
  intro told ended
  obtain ⟨⟨delimiter, offset, rfl⟩, opened⟩ := worst error rfl
  cases ended
  exact ⟨⟨delimiter, _, rfl⟩, opened⟩

end Run.OpenAtWorst

namespace Interpolation
open Directive

/-- The scan of a text that names no file, and of keys that name none. The text is closed
rather than well nested: a body that is given up is scanned again from its inside, where the
brace that closes it is still to come. -/
theorem scan_openAtWorst (files : Files) (options : Options) :
    (∀ used origin position text, ¬scheme <:+: text →
      (scan files options used origin position text).OpenAtWorst (Closed text)) ∧
    ∀ used base keys, (∀ key ∈ keys, ¬scheme <:+: key.text) →
      (scanKeys files options used base keys).OpenAtWorst (∀ key ∈ keys, Closed key.text) := by
  apply scan_induction files options
  case nil =>
    intro used origin position fileless
    rw [scan_nil]
    exact .ok
  case text =>
    intro used origin position c text plain ih fileless
    rw [scan_text plain]
    have later := ih fun inside => fileless (inside.trans (List.suffix_cons c text).isInfix)
    exact (later.mono Closed.tail).map _
  case unclosed =>
    intro used origin position text delimiter offset extent rest reading fileless
    rw [scan_unclosed reading]
    rintro error ⟨rfl⟩
    refine ⟨⟨delimiter, _, rfl⟩, fun closed => ?_⟩
    exact closed.tail.not_unclosed delimiter offset (by rw [reading])
  case inclusion =>
    intro used origin position text named extent rest reading _ fileless
    have inside : scheme <:+: text := scheme_isInfix (by rw [reading])
    exact absurd (inside.trans (List.suffix_cons '@' text).isInfix) fileless
  case yields =>
    intro used origin position text directive extent rest build reading yields keys after fileless
    have held : text <:+ '@' :: text := List.suffix_cons '@' text
    have whole := read_append text
    rw [reading] at whole
    have keyInfix : ∀ key ∈ directive.keys, key.text <:+: text := by
      intro key member
      exact read_key_isInfix (by rwa [reading])
    have keysWorst := keys fun key member inside =>
      fileless (inside.trans ((keyInfix key member).trans held.isInfix))
    have keysClosed : Closed ('@' :: text) → ∀ key ∈ directive.keys, Closed key.text := by
      intro closed key member
      exact (closed.tail.keys key (by rwa [reading])).closed
    rw [scan_yields reading yields]
    generalize keysRan : scanKeys files options used (position + directive.keysStart) directive.keys = run
      at keysWorst
    obtain ⟨inclusions, events, result⟩ := run
    cases result with
    | error error => exact (keysWorst.mono keysClosed).relocate origin
    | ok found =>
      have restSuffix : rest <:+ '@' :: text := List.IsSuffix.trans ⟨extent, whole⟩ held
      have later := after _ _ _ keysRan fun inside => fileless (inside.trans restSuffix.isInfix)
      have restClosed : Closed ('@' :: text) → Closed rest := by
        intro closed
        rw [← whole] at closed
        exact closed.tail.suffix
      exact (later.mono restClosed).map _
  case noKeys =>
    intro used base fileless
    rw [scanKeys_nil]
    exact .ok
  case literalKey =>
    intro used base key more verbatim ih fileless
    rw [scanKeys_literal verbatim]
    obtain ⟨_, moreFileless⟩ := List.forall_mem_cons.mp fileless
    exact ((ih moreFileless).mono fun closed => (List.forall_mem_cons.mp closed).2).map _
  case scannedKey =>
    intro used base key more isAt inside after fileless
    obtain ⟨keyFileless, moreFileless⟩ := List.forall_mem_cons.mp fileless
    have keyWorst := inside keyFileless
    rw [scanKeys_scanned isAt]
    generalize keyRan : scan files options used (.start (base + key.offset)) 0 key.text = run
      at keyWorst
    obtain ⟨inclusions, events, result⟩ := run
    cases result with
    | error error => exact keyWorst.mono fun closed => closed key List.mem_cons_self
    | ok parts =>
      have later := after _ _ _ keyRan moreFileless
      exact (later.mono fun closed => (List.forall_mem_cons.mp closed).2).map _

end Interpolation

open Interpolation Directive in
/-- Text that names no file fails only at a delimiter that is never closed, and
well-nested text not at all. -/
theorem interpolate_wellNested (files : Files) (options : Options) {text : Text}
    (fileless : ¬scheme <:+: text) :
    (WellNested text → ∃ value, (interpolate files options text).result = .ok value) ∧
    ∀ error, (interpolate files options text).result = .error error →
      ∃ delimiter offset, error = .unterminated delimiter offset := by
  have worst : (interpolate files options text).OpenAtWorst (Closed text) := by
    rw [interpolate_eq_map_collapse]
    exact ((scan_openAtWorst files options).1 0 (.start 0) 0 text fileless).map _
  constructor
  · intro nested
    cases ended : (interpolate files options text).result with
    | ok value => exact ⟨value, rfl⟩
    | error error => exact absurd nested.closed (worst error ended).2
  · intro error ended
    exact (worst error ended).1

open Interpolation Directive in
/-- A body given up after its brackets, whose key holds brackets in braces, beside
a comma in braces; and the same text with its last bracket missing. -/
theorem interpolate_wellNested_rejected_body :
    let files : Files := fun _ => .error .notFound
    let text := ['@', '{', 'M', '[', '@', '{', 'N', '.', '[', ',', ']', '}', ',', 'k', ']', '!', '}',
      '@', 'P', '[', '{', ',', '}']
    (WellNested (text ++ [']']) ∧ ∃ value, (interpolate files {} (text ++ [']'])).result = .ok value) ∧
      ∃ error, (interpolate files {} text).result = .error error ∧
        ∃ delimiter offset, error = .unterminated delimiter offset := by
  intro files text
  have nested : WellNested (text ++ [']']) := by decide
  have failed : (interpolate files {} text).result = .error (.unterminated .bracket 19) := by cbv
  refine ⟨⟨nested, (interpolate_wellNested files {} (by decide)).1 nested⟩, _, failed, ?_⟩
  exact (interpolate_wellNested files {} (by decide)).2 _ failed

end StackTemplate
