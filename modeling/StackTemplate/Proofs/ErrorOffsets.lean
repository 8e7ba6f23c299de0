import StackTemplate.Proofs.ScanSimulation
import StackTemplate.Proofs.TaggedText

/-! Offsets of errors. The scan of a tagged text stops at a delimiter that is never
closed, inside keys and included files as well as in the input itself. The tag it
finds there is the offset that the error tells. -/
namespace StackTemplate

/-- The run ended at a delimiter never closed, and `place` tells its offset as `tag`. -/
def Run.EndsAt (place : Nat → Nat) (delimiter : Delimiter) (tag : Nat) (run : Run α) : Prop :=
  ∃ offset, run.result = .error (.unterminated delimiter offset) ∧ place offset = tag

namespace Run

variable {place : Nat → Nat} {delimiter : Delimiter} {tag : Nat}

@[simp] theorem endsAt_map (f : α → β) (run : Run α) :
    (run.map f).EndsAt place delimiter tag ↔ run.EndsAt place delimiter tag := by
  obtain ⟨inclusions, events, result⟩ := run
  cases result <;> simp [EndsAt, map, Except.map]

@[simp] theorem endsAt_after (run : Run α) (inclusions : List Inclusion) (events : List Event) :
    (run.after inclusions events).EndsAt place delimiter tag ↔ run.EndsAt place delimiter tag :=
  Iff.rfl

theorem not_endsAt_ok {inclusions : List Inclusion} {events : List Event} {value : α} :
    ¬EndsAt place delimiter tag ⟨inclusions, events, .ok value⟩ := by
  rintro ⟨offset, ended, _⟩
  cases ended

theorem endsAt_relocate {inclusions : List Inclusion} {events : List Event} {origin : Origin}
    {error : Error} :
    EndsAt place delimiter tag (⟨inclusions, events, .error (origin.relocate error)⟩ : Run β) ↔
      EndsAt (fun k => place (origin.offset k)) delimiter tag
        (⟨inclusions, events, .error error⟩ : Run α) := by
  constructor
  · rintro ⟨offset, ended, told⟩
    cases error <;> cases ended
    exact ⟨_, rfl, told⟩
  · rintro ⟨offset, ended, told⟩
    cases ended
    exact ⟨_, rfl, told⟩

end Run

namespace Interpolation
open Directive (Key)

mutual

/-- The scan of a tagged text comes to a delimiter that is never closed, which
carries the tag. A brace carries the tag of the `@` in front of it. -/
inductive Stops (files : Files) (options : Options) : Nat → Tagged → Delimiter → Nat → Prop where
  | brace {used tag bracing : Nat} {inner : Tagged}
      (notClosed : Directive.enclosed .brace inner.text = none) :
      Stops files options used (('@', tag) :: ('{', bracing) :: inner) .brace tag
  | bracket {used site offset tag : Nat} {rest inner : Tagged} {extent after : Text}
      (reading : Directive.read rest.text = ⟨.unclosed .bracket offset, extent, after⟩)
      (opens : rest.body.afterName = ('[', tag) :: inner)
      (notClosed : Directive.enclosed .bracket inner.text = none) :
      Stops files options used (('@', site) :: rest) .bracket tag
  | text {used site tag : Nat} {c : Char} {rest : Tagged} {delimiter : Delimiter} (plain : c ≠ '@')
      (later : Stops files options used rest delimiter tag) :
      Stops files options used ((c, site) :: rest) delimiter tag
  | inclusion {used site tag : Nat} {rest : Tagged} {named extent after content : Text}
      {delimiter : Delimiter}
      (reading : Directive.read rest.text = ⟨.inclusion named, extent, after⟩)
      (room : used < options.includeLimit) (held : files (options.locate named) = .ok content)
      (later : Stops files options (used + 1)
        (content.map (fun c => (c, site)) ++ rest.drop extent.length) delimiter tag) :
      Stops files options used (('@', site) :: rest) delimiter tag
  | keys {used site tag : Nat} {rest : Tagged} {directive : Directive} {extent after name : Text}
      {keys : List Key} {delimiter : Delimiter}
      (reading : Directive.read rest.text = ⟨directive, extent, after⟩)
      (shaped : directive.shape? = some (.lookup name keys))
      (inside : StopsInKeys files options used rest.body.keys delimiter tag) :
      Stops files options used (('@', site) :: rest) delimiter tag
  | step {used site tag base : Nat} {rest : Tagged} {directive : Directive} {extent after : Text}
      {build : List Fragment → Fragment} {inclusions : List Inclusion} {events : List Event}
      {found : List Fragment} {delimiter : Delimiter}
      (reading : Directive.read rest.text = ⟨directive, extent, after⟩)
      (yields : directive.yield? = some build)
      (keysRan : scanKeys files options used base directive.keys = ⟨inclusions, events, .ok found⟩)
      (later : Stops files options (used + inclusions.length) (rest.drop extent.length) delimiter tag) :
      Stops files options used (('@', site) :: rest) delimiter tag

/-- The scan of tagged keys, one after the other, comes to such a delimiter. -/
inductive StopsInKeys (files : Files) (options : Options) :
    Nat → List Tagged → Delimiter → Nat → Prop where
  | here {used tag : Nat} {key : Tagged} {more : List Tagged} {delimiter : Delimiter}
      (isAt : key.text.head? = some '@') (inside : Stops files options used key delimiter tag) :
      StopsInKeys files options used (key :: more) delimiter tag
  | literal {used tag : Nat} {key : Tagged} {more : List Tagged} {delimiter : Delimiter}
      (verbatim : key.text.head? ≠ some '@')
      (later : StopsInKeys files options used more delimiter tag) :
      StopsInKeys files options used (key :: more) delimiter tag
  | scanned {used tag position : Nat} {origin : Origin} {key : Tagged} {more : List Tagged}
      {inclusions : List Inclusion} {events : List Event} {parts : List Fragment}
      {delimiter : Delimiter} (isAt : key.text.head? = some '@')
      (ran : scan files options used origin position key.text = ⟨inclusions, events, .ok parts⟩)
      (later : StopsInKeys files options (used + inclusions.length) more delimiter tag) :
      StopsInKeys files options used (key :: more) delimiter tag

end

private theorem read_unclosed_brace {text extent rest : Text} {offset : Nat}
    (reading : Directive.read text = ⟨.unclosed .brace offset, extent, rest⟩) :
    offset = 0 ∧ ∃ inner, text = '{' :: inner ∧ Directive.enclosed .brace inner = none := by
  unfold Directive.read at reading
  split at reading
  · cases reading
  · next c inner =>
    split at reading
    · cases reading
    · split at reading
      · next brace =>
        subst brace
        unfold Directive.readDelimited at reading
        split at reading
        · next notClosed =>
          cases reading
          exact ⟨rfl, inner, rfl, notClosed⟩
        · dsimp only at reading
          split at reading
          · cases reading
          · split at reading <;> cases reading
      · split at reading
        · unfold Directive.readGreedy at reading
          split at reading
          · cases reading
          · split at reading <;> cases reading
        · cases reading

private theorem read_brace {inner : Text} (notClosed : Directive.enclosed .brace inner = none) :
    Directive.read ('{' :: inner) = .bare (.unclosed .brace 0) ('{' :: inner) := by
  simp [Directive.read, Directive.readDelimited, notClosed]

variable {files : Files} {options : Options} {used site tag : Nat} {rest : Tagged}
  {delimiter : Delimiter}

private theorem stops_brace_iff {bracing : Nat} {inner : Tagged}
    (notClosed : Directive.enclosed .brace inner.text = none) :
    Stops files options used (('@', site) :: ('{', bracing) :: inner) delimiter tag ↔
      delimiter = .brace ∧ tag = site := by
  have reading : Directive.read (Tagged.text (('{', bracing) :: inner)) = _ := read_brace notClosed
  constructor
  · intro stops
    cases stops with
    | brace => exact ⟨rfl, rfl⟩
    | bracket same => cases reading.symm.trans same
    | text plain => exact absurd rfl plain
    | inclusion same => cases reading.symm.trans same
    | keys same shaped =>
      cases reading.symm.trans same
      cases shaped
    | step same yields =>
      cases reading.symm.trans same
      cases yields
  · rintro ⟨rfl, rfl⟩
    exact .brace notClosed

private theorem stops_bracket_iff {offset place : Nat} {inner : Tagged} {extent after : Text}
    (reading : Directive.read rest.text = ⟨.unclosed .bracket offset, extent, after⟩)
    (opens : rest.body.afterName = ('[', place) :: inner)
    (notClosed : Directive.enclosed .bracket inner.text = none) :
    Stops files options used (('@', site) :: rest) delimiter tag ↔
      delimiter = .bracket ∧ tag = place := by
  constructor
  · intro stops
    cases stops with
    | brace opened => cases reading.symm.trans (read_brace opened)
    | bracket _ same =>
      cases opens.symm.trans same
      exact ⟨rfl, rfl⟩
    | text plain => exact absurd rfl plain
    | inclusion same => cases reading.symm.trans same
    | keys same shaped =>
      cases reading.symm.trans same
      cases shaped
    | step same yields =>
      cases reading.symm.trans same
      cases yields
  · rintro ⟨rfl, rfl⟩
    exact .bracket reading opens notClosed

private theorem stops_inclusion_iff {named extent after : Text}
    (reading : Directive.read rest.text = ⟨.inclusion named, extent, after⟩) :
    Stops files options used (('@', site) :: rest) delimiter tag ↔
      used < options.includeLimit ∧ ∃ content, files (options.locate named) = .ok content ∧
        Stops files options (used + 1)
          (content.map (fun c => (c, site)) ++ rest.drop extent.length) delimiter tag := by
  constructor
  · intro stops
    cases stops with
    | brace opened => cases reading.symm.trans (read_brace opened)
    | bracket same => cases reading.symm.trans same
    | text plain => exact absurd rfl plain
    | inclusion same room held later =>
      cases reading.symm.trans same
      exact ⟨room, _, held, later⟩
    | keys same shaped =>
      cases reading.symm.trans same
      cases shaped
    | step same yields =>
      cases reading.symm.trans same
      cases yields
  · rintro ⟨room, content, held, later⟩
    exact .inclusion reading room held later

private theorem stops_yields_iff {directive : Directive} {extent after : Text}
    {build : List Fragment → Fragment}
    (reading : Directive.read rest.text = ⟨directive, extent, after⟩)
    (yields : directive.yield? = some build) :
    Stops files options used (('@', site) :: rest) delimiter tag ↔
      (∃ name keys, directive.shape? = some (.lookup name keys) ∧
        StopsInKeys files options used rest.body.keys delimiter tag) ∨
      ∃ base inclusions events found,
        scanKeys files options used base directive.keys = ⟨inclusions, events, .ok found⟩ ∧
        Stops files options (used + inclusions.length) (rest.drop extent.length) delimiter tag := by
  constructor
  · intro stops
    cases stops with
    | brace opened =>
      cases reading.symm.trans (read_brace opened)
      cases yields
    | bracket same =>
      cases reading.symm.trans same
      cases yields
    | text plain => exact absurd rfl plain
    | inclusion same =>
      cases reading.symm.trans same
      cases yields
    | keys same shaped inside =>
      cases reading.symm.trans same
      exact .inl ⟨_, _, shaped, inside⟩
    | step same _ keysRan later =>
      cases reading.symm.trans same
      exact .inr ⟨_, _, _, _, keysRan, later⟩
  · rintro (⟨name, keys, shaped, inside⟩ | ⟨base, inclusions, events, found, keysRan, later⟩)
    · exact .keys reading shaped inside
    · exact .step reading yields keysRan later

private theorem stopsInKeys_scanned_iff {key : Tagged} {more : List Tagged}
    (isAt : key.text.head? = some '@') :
    StopsInKeys files options used (key :: more) delimiter tag ↔
      Stops files options used key delimiter tag ∨
      ∃ origin position inclusions events parts,
        scan files options used origin position key.text = ⟨inclusions, events, .ok parts⟩ ∧
        StopsInKeys files options (used + inclusions.length) more delimiter tag := by
  constructor
  · intro stops
    cases stops with
    | here _ inside => exact .inl inside
    | literal verbatim => exact absurd isAt verbatim
    | scanned _ ran later => exact .inr ⟨_, _, _, _, _, ran, later⟩
  · rintro (inside | ⟨origin, position, inclusions, events, parts, ran, later⟩)
    · exact .here isAt inside
    · exact .scanned isAt ran later

/-- A scan ends at a delimiter never closed exactly where its tagged scan stops. Errors in
keys come in positions of the text at hand, so its origin is part of their place. -/
theorem scan_endsAt_iff (files : Files) (options : Options) :
    (∀ used origin position text, ∀ place delimiter tag,
      (scan files options used origin position text).EndsAt place delimiter tag ↔
        Stops files options used (Tagged.ofText (fun k => place (origin.offset k)) position text)
          delimiter tag) ∧
    ∀ used base keys, ∀ place delimiter tag,
      (scanKeys files options used base keys).EndsAt place delimiter tag ↔
        StopsInKeys files options used
          (keys.map fun key : Key => Tagged.ofText place (base + key.offset) key.text) delimiter tag := by
  apply scan_induction files options
  case nil =>
    intro used origin position place delimiter tag
    rw [scan_nil]
    exact ⟨fun ended => absurd ended Run.not_endsAt_ok, fun stops => (by cases stops)⟩
  case text =>
    intro used origin position c text plain ih place delimiter tag
    rw [scan_text plain, Run.endsAt_map, ih]
    refine ⟨.text plain, fun stops => ?_⟩
    rw [Tagged.ofText] at stops
    generalize Tagged.ofText (fun k => place (origin.offset k)) (position + c.utf8Size) text = rest
      at stops ⊢
    cases stops with
    | text plain later => exact later
    | brace notClosed => exact absurd rfl plain
    | bracket reading opens notClosed => exact absurd rfl plain
    | inclusion reading room held later => exact absurd rfl plain
    | keys reading shaped inside => exact absurd rfl plain
    | step reading yields keysRan later => exact absurd rfl plain
  case unclosed =>
    intro used origin position text delimiter offset extent rest reading place delimiter' tag
    have ended : (scan files options used origin position ('@' :: text)).EndsAt place delimiter' tag ↔
        delimiter' = delimiter ∧ tag = place (origin.offset (position + offset)) := by
      rw [scan_unclosed reading]
      constructor
      · rintro ⟨_, same, rfl⟩
        cases same
        exact ⟨rfl, rfl⟩
      · rintro ⟨rfl, rfl⟩
        exact ⟨_, rfl, rfl⟩
    rw [ended, Tagged.ofText_at]
    cases delimiter with
    | brace =>
      obtain ⟨rfl, inner, rfl, notClosed⟩ := read_unclosed_brace reading
      rw [Tagged.ofText, stops_brace_iff (by rwa [Tagged.text_ofText])]
      rfl
    | bracket =>
      obtain ⟨inner, notClosed, opens⟩ := Directive.read_unclosed_bracket reading
      rw [stops_bracket_iff (by rwa [Tagged.text_ofText]) (opens _ _) (by rwa [Tagged.text_ofText])]
  case inclusion =>
    intro used origin position text named extent rest reading ih place delimiter tag
    rw [Tagged.ofText_at, stops_inclusion_iff (by rwa [Tagged.text_ofText]), scan_inclusion reading,
      Tagged.drop_read reading]
    by_cases room : used < options.includeLimit
    · rw [if_pos room]
      cases held : files (options.locate named) with
      | error fault => simp [Run.EndsAt, Run.after, Run.fail]
      | ok content =>
        have spliced := ih content room held place delimiter tag
        rw [Tagged.ofText_splice] at spliced
        simp [room, spliced]
    · rw [if_neg room]
      simp [room, Run.EndsAt]
  case yields =>
    intro used origin position text directive extent rest build reading yields keys after
      place delimiter tag
    have inKeys := keys (fun k => place (origin.offset k)) delimiter tag
    have tagged (name written) (shaped : directive.shape? = some (.lookup name written)) :=
      Directive.read_keys reading shaped (fun k => place (origin.offset k)) position
    rw [Tagged.ofText_at, stops_yields_iff (by rwa [Tagged.text_ofText]) yields, scan_yields reading yields,
      Tagged.drop_read reading]
    generalize keysRan : scanKeys files options used (position + directive.keysStart) directive.keys = run
      at inKeys ⊢
    obtain ⟨inclusions, events, error | found⟩ := run
    · dsimp only
      rw [Run.endsAt_relocate, inKeys]
      constructor
      · intro inside
        obtain ⟨name, written, shaped⟩ : ∃ name written, directive.shape? = some (.lookup name written) := by
          refine Directive.shape?_of_keys fun none => ?_
          rw [none] at inside
          cases inside
        exact .inl ⟨name, written, shaped, tagged name written shaped ▸ inside⟩
      · rintro (⟨name, written, shaped, inside⟩ | ⟨base, inclusions', events', found, ran, later⟩)
        · rwa [tagged name written shaped] at inside
        · obtain ⟨events'', same⟩ := scanKeys_ran_alike ran
          cases keysRan.symm.trans same
    · have ended := after inclusions events found keysRan place delimiter tag
      dsimp only
      rw [Run.endsAt_after, Run.endsAt_map, ended]
      constructor
      · intro later
        exact .inr ⟨_, _, _, _, keysRan, later⟩
      · rintro (⟨name, written, shaped, inside⟩ | ⟨base, inclusions', events', found', ran, later⟩)
        · rw [tagged name written shaped, ← inKeys] at inside
          exact absurd inside Run.not_endsAt_ok
        · obtain ⟨events'', same⟩ := scanKeys_ran_alike ran
          cases keysRan.symm.trans same
          exact later
  case noKeys =>
    intro used base place delimiter tag
    rw [scanKeys_nil]
    exact ⟨fun ended => absurd ended Run.not_endsAt_ok, fun stops => (by cases stops)⟩
  case literalKey =>
    intro used base key more verbatim ih place delimiter tag
    rw [scanKeys_literal verbatim, Run.endsAt_map, ih, List.map_cons]
    have erased := @Tagged.text_ofText place (base + key.offset) key.text
    generalize Tagged.ofText place (base + key.offset) key.text = tagged at erased ⊢
    refine ⟨.literal (erased ▸ verbatim), fun stops => ?_⟩
    cases stops with
    | here isAt inside => exact absurd (erased ▸ isAt) verbatim
    | literal _ later => exact later
    | scanned isAt ran later => exact absurd (erased ▸ isAt) verbatim
  case scannedKey =>
    intro used base key more isAt inside after place delimiter tag
    have inKey : (scan files options used (.start (base + key.offset)) 0 key.text).EndsAt
          place delimiter tag ↔
        Stops files options used (Tagged.ofText place (base + key.offset) key.text) delimiter tag := by
      have placed : Tagged.ofText (fun k => place ((Origin.start (base + key.offset)).offset k)) 0
          key.text = Tagged.ofText place (base + key.offset) key.text :=
        Tagged.ofText_congr (fun k => by simp) key.text
      rw [inside, placed]
    rw [List.map_cons, stopsInKeys_scanned_iff (by rwa [Tagged.text_ofText]), scanKeys_scanned isAt,
      Tagged.text_ofText, ← inKey]
    generalize ran : scan files options used (.start (base + key.offset)) 0 key.text = run at inKey ⊢
    obtain ⟨inclusions, events, error | parts⟩ := run
    · constructor
      · exact .inl
      · rintro (ended | ⟨origin, position, inclusions', events', parts, other, later⟩)
        · exact ended
        · obtain ⟨events'', same⟩ := scan_ran_alike rfl rfl other
          cases ran.symm.trans same
    · have ended := after inclusions events parts ran place delimiter tag
      dsimp only
      rw [Run.endsAt_after, Run.endsAt_map, ended]
      constructor
      · intro later
        exact .inr ⟨_, _, _, _, _, ran, later⟩
      · rintro (ended | ⟨origin, position, inclusions', events', parts', other, later⟩)
        · exact absurd ended Run.not_endsAt_ok
        · obtain ⟨events'', same⟩ := scan_ran_alike rfl rfl other
          cases ran.symm.trans same
          exact later

/-- A tag that a scan stops at leads to an `@` of the input or, at a bracket, to
that bracket. Keys are stretches of an anchored text, and so are anchored themselves. -/
theorem Stops.at_input {files : Files} {options : Options} {used tag : Nat} {buffer : Tagged}
    {delimiter : Delimiter} {input : Text} (stops : Stops files options used buffer delimiter tag) :
    buffer.Anchored input → input.At tag '@' ∨ delimiter = .bracket ∧ input.At tag '[' := by
  refine @Stops.rec files options
    (fun _ buffer delimiter tag _ => buffer.Anchored input →
      input.At tag '@' ∨ delimiter = .bracket ∧ input.At tag '[')
    (fun _ keys delimiter tag _ => (∀ key ∈ keys, Tagged.Anchored input key) →
      input.At tag '@' ∨ delimiter = .bracket ∧ input.At tag '[')
    ?brace ?bracket ?text ?inclusion ?keys ?step ?here ?literal ?scanned used buffer delimiter tag stops
  case brace =>
    intro _ tag _ _ _ anchored
    exact .inl ((anchored '@' tag (by simp)).elim id id)
  case bracket =>
    intro _ _ _ tag rest _ _ _ _ opens _ anchored
    have member : ('[', tag) ∈ rest :=
      rest.body_subset (rest.body.afterName_subset (by simp [opens]))
    rcases anchored '[' tag (List.mem_cons_of_mem _ member) with own | isAt
    · exact .inr ⟨rfl, own⟩
    · exact .inl isAt
  case text =>
    intro _ _ _ _ _ _ _ _ ih anchored
    exact ih (anchored.mono fun _ => List.mem_cons_of_mem _)
  case inclusion =>
    intro _ site _ rest _ _ _ content _ _ _ _ _ ih anchored
    refine ih fun c tag member => ?_
    rcases List.mem_append.mp member with included | after
    · obtain ⟨_, _, same⟩ := List.mem_map.mp included
      cases same
      exact .inr ((anchored '@' site (by simp)).elim id id)
    · exact anchored c tag (List.mem_cons_of_mem _ (List.mem_of_mem_drop after))
  case keys =>
    intro _ _ _ rest _ _ _ _ _ _ _ _ _ ih anchored
    refine ih fun key member => anchored.mono fun pair held => ?_
    exact List.mem_cons_of_mem _ (rest.body_subset (rest.body.keys_subset key member held))
  case step =>
    intro _ _ _ _ _ _ _ _ _ _ _ _ _ _ _ _ _ ih anchored
    exact ih (anchored.mono fun _ held => List.mem_cons_of_mem _ (List.mem_of_mem_drop held))
  case here =>
    intro _ _ key _ _ _ _ ih anchored
    exact ih (anchored key (by simp))
  case literal =>
    intro _ _ _ _ _ _ _ ih anchored
    exact ih fun key member => anchored key (List.mem_cons_of_mem _ member)
  case scanned =>
    intro _ _ _ _ _ _ _ _ _ _ _ _ _ ih anchored
    exact ih fun key member => anchored key (List.mem_cons_of_mem _ member)

end Interpolation

open Interpolation in
/-- Offsets of errors are exact. When a text fails at a delimiter never closed,
its tagged scan stops at that delimiter and that offset and nowhere else, so the
offset is that of an `@` of the text or, for a bracket, of an `@` or a `[`. -/
theorem interpolate_unterminated (files : Files) (options : Options) {text : Text}
    {delimiter : Delimiter} {offset : Nat}
    (failed : (interpolate files options text).result = .error (.unterminated delimiter offset)) :
    (∀ delimiter' tag, Stops files options 0 (Tagged.ofText id 0 text) delimiter' tag ↔
      delimiter' = delimiter ∧ tag = offset) ∧
    offset < Text.byteLength text ∧
    (text.At offset '@' ∨ delimiter = .bracket ∧ text.At offset '[') := by
  have scanned : (scan files options 0 (.start 0) 0 text).result =
      .error (.unterminated delimiter offset) := by
    rw [interpolate_eq_map_collapse, Run.result_map] at failed
    generalize (scan files options 0 (.start 0) 0 text).result = result at failed ⊢
    cases result with
    | error error =>
      cases failed
      rfl
    | ok parts => cases failed
  have placed : Tagged.ofText (fun k => id ((Origin.start 0).offset k)) 0 text = Tagged.ofText id 0 text :=
    Tagged.ofText_congr (fun k => by simp) text
  have precise (delimiter' tag) : Stops files options 0 (Tagged.ofText id 0 text) delimiter' tag ↔
      delimiter' = delimiter ∧ tag = offset := by
    rw [← placed, ← (scan_endsAt_iff files options).1]
    constructor
    · rintro ⟨_, told, rfl⟩
      cases scanned.symm.trans told
      exact ⟨rfl, rfl⟩
    · rintro ⟨rfl, rfl⟩
      exact ⟨_, scanned, rfl⟩
  have stops := (precise delimiter offset).mpr ⟨rfl, rfl⟩
  have found := stops.at_input (@Tagged.anchored_ofText text [] text rfl)
  refine ⟨precise, ?_, found⟩
  rcases found with isAt | ⟨_, isBracket⟩
  · exact isAt.lt
  · exact isBracket.lt

open Interpolation in
/-- A lookup that begins in an included file and ends in the input. -/
theorem interpolate_unterminated_through_inclusion :
    let files : Files := fun path => if path = ['f'] then .ok ['@', 'M', '[', 'a'] else .error .notFound
    let text : Text := '@' :: '{' :: (Directive.scheme ++ ['f', '}', ',', ' ', '@', '{', 'x', ']', '}'])
    Stops files {} 0 (Tagged.ofText id 0 text) .brace 13 ∧ text.At 13 '@' := by
  intro files text
  obtain ⟨stops, _, found⟩ := @interpolate_unterminated files {} text .brace 13 (by cbv)
  exact ⟨(stops .brace 13).mpr ⟨rfl, rfl⟩, found.resolve_right (by simp)⟩

end StackTemplate
