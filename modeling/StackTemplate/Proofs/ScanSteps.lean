import StackTemplate.Interpolation
import StackTemplate.Proofs.FragmentCollapse

/-! What one step of a scan can do. Every directive but an inclusion and an
unclosed delimiter scans its keys, puts one fragment into the result and goes on
after its own text. The equations here are the only place that opens `scan`;
everything said about a whole scan follows `scan_induction`. -/
namespace StackTemplate

/-- An expression as written builds neither text nor a join. -/
theorem Shape.build_cases (shape : Shape) (keys : List Fragment) :
    (shape.build keys).isLiteral = false ∧ ∀ inner, shape.build keys ≠ .join inner := by
  cases shape with
  | reference name => exact ⟨rfl, fun _ => Fragment.noConfusion⟩
  | attributeOf name path => exact ⟨rfl, fun _ => Fragment.noConfusion⟩
  | lookup name written =>
    match keys with
    | [] => exact ⟨rfl, fun _ => Fragment.noConfusion⟩
    | [key] => exact ⟨rfl, fun _ => Fragment.noConfusion⟩
    | first :: second :: more => exact ⟨rfl, fun _ => Fragment.noConfusion⟩

namespace Directive

/-- The keys a directive scans before it is settled. -/
def keys : Directive → List Key
  | expression _ shape => shape.keys
  | rejected _ shape => shape.keys
  | _ => []

/-- Where the keys of a directive begin, in bytes from its `@`. -/
def keysStart : Directive → Nat
  | expression lead shape => lead + shape.keysOffset
  | rejected lead shape => lead + shape.keysOffset
  | _ => 0

/-- What a directive puts into the result, given its keys. An inclusion and an
unclosed delimiter put nothing there. -/
def yield? : Directive → Option (List Fragment → Fragment)
  | expression _ shape => some shape.build
  | inclusion _ => none
  | unclosed _ _ => none
  | _ => some fun _ => .literal ['@']

/-- What a directive at a position reports, given its keys. -/
def reports (position : Nat) : Directive → List Fragment → List Event
  | expression _ shape, keys => [.expression (shape.build keys) position]
  | _, _ => []

theorem keys_of_shape? {directive : Directive} {shape : Shape} (shaped : directive.shape? = some shape) :
    directive.keys = shape.keys := by
  cases directive with
  | expression lead shape => cases shaped; rfl
  | rejected lead shape => cases shaped; rfl
  | escape => cases shaped
  | plain => cases shaped
  | inclusion path => cases shaped
  | unclosed delimiter offset => cases shaped

/-- Only a lookup has keys. -/
theorem shape?_of_keys {directive : Directive} (keyed : directive.keys ≠ []) :
    ∃ name keys, directive.shape? = some (.lookup name keys) := by
  have looked {shape : Shape} (keyed : shape.keys ≠ []) : ∃ name keys, shape = .lookup name keys := by
    cases shape with
    | reference name => exact absurd rfl keyed
    | attributeOf name path => exact absurd rfl keyed
    | lookup name keys => exact ⟨name, keys, rfl⟩
  cases directive with
  | expression lead shape =>
    obtain ⟨name, keys, rfl⟩ := looked keyed
    exact ⟨name, keys, rfl⟩
  | rejected lead shape =>
    obtain ⟨name, keys, rfl⟩ := looked keyed
    exact ⟨name, keys, rfl⟩
  | escape => exact absurd rfl keyed
  | plain => exact absurd rfl keyed
  | inclusion path => exact absurd rfl keyed
  | unclosed delimiter offset => exact absurd rfl keyed

/-- A directive's text and what follows it take the bytes after its `@`. -/
theorem byteLength_read {text extent rest : Text} {directive : Directive}
    (reading : read text = ⟨directive, extent, rest⟩) :
    Text.byteLength text = Text.byteLength extent + Text.byteLength rest := by
  have whole := read_append text
  rw [reading] at whole
  rw [← whole, Text.byteLength_append]

theorem not_unclosed {directive : Directive} {build : List Fragment → Fragment}
    (yields : directive.yield? = some build) (delimiter : Delimiter) (offset : Nat) :
    directive ≠ .unclosed delimiter offset := by
  rintro rfl
  cases yields

theorem not_inclusion {directive : Directive} {build : List Fragment → Fragment}
    (yields : directive.yield? = some build) (named : Text) : directive ≠ .inclusion named := by
  rintro rfl
  cases yields

end Directive

namespace Interpolation
open Directive (Key)

variable {files : Files} {options : Options} {used position base : Nat} {origin : Origin}

@[simp] theorem scan_nil : scan files options used origin position [] = .done [] := by
  simp [scan]

theorem scan_text {c : Char} (plain : c ≠ '@') (text : Text) :
    scan files options used origin position (c :: text) =
      (scan files options used origin (position + c.utf8Size) text).map (.literal [c] :: ·) := by
  rw [scan]
  simp [plain]

theorem scan_unclosed {text extent rest : Text} {delimiter : Delimiter} {offset : Nat}
    (reading : Directive.read text = ⟨.unclosed delimiter offset, extent, rest⟩) :
    scan files options used origin position ('@' :: text) =
      .fail (.unterminated delimiter (origin.offset (position + offset))) := by
  rw [scan, if_neg (by simp)]
  split
  all_goals
    rename_i found
    rw [reading] at found
    cases found
  rfl

theorem scan_inclusion {text named extent rest : Text}
    (reading : Directive.read text = ⟨.inclusion named, extent, rest⟩) :
    scan files options used origin position ('@' :: text) =
      if used < options.includeLimit then
        match files (options.locate named) with
        | .error fault =>
          (Run.fail (.unreadableInclusion (options.locate named) fault)).after
            [⟨named, options.locate named⟩] []
        | .ok content =>
          (scan files options (used + 1)
            (origin.splice position (position + 1 + Text.byteLength extent) (Text.byteLength content))
            0 (content ++ rest)).after [⟨named, options.locate named⟩]
              [.included (options.locate named) (Text.byteLength content) (used + 1)]
      else .fail (.tooManyInclusions options.includeLimit) := by
  rw [scan, if_neg (by simp)]
  split
  all_goals
    rename_i found
    rw [reading] at found
    cases found
  rfl

/-- The step of a directive that yields a fragment. -/
theorem scan_yields {text extent rest : Text} {directive : Directive}
    {build : List Fragment → Fragment}
    (reading : Directive.read text = ⟨directive, extent, rest⟩)
    (yields : directive.yield? = some build) :
    scan files options used origin position ('@' :: text) =
      match scanKeys files options used (position + directive.keysStart) directive.keys with
      | ⟨inclusions, events, .error error⟩ => ⟨inclusions, events, .error (origin.relocate error)⟩
      | ⟨inclusions, events, .ok keys⟩ =>
        ((scan files options (used + inclusions.length) origin
            (position + 1 + Text.byteLength extent) rest).map (build keys :: ·)).after
          inclusions (events ++ directive.reports position keys) := by
  rw [scan, if_neg (by simp)]
  split
  all_goals
    rename_i found
    rw [reading] at found
    cases found
    cases yields
  · simp [Directive.keys, scanKeys, Run.done, Directive.reports]
  · simp [Directive.keys, scanKeys, Run.done, Directive.reports]
  · next lead shape =>
    rw [Nat.add_assoc position lead shape.keysOffset]
    rfl
  · next lead shape =>
    simp only [Directive.reports, List.append_nil]
    rw [Nat.add_assoc position lead shape.keysOffset]
    rfl

/-- How a directive that yields a fragment went through: first its keys, then
the text after it. -/
theorem scan_yields_ok {text extent rest : Text} {directive : Directive}
    {build : List Fragment → Fragment}
    (reading : Directive.read text = ⟨directive, extent, rest⟩)
    (yields : directive.yield? = some build) {inclusions : List Inclusion} {events : List Event}
    {parts : List Fragment}
    (ran : scan files options used origin position ('@' :: text) = ⟨inclusions, events, .ok parts⟩) :
    ∃ read told keys later laterTold inner,
      scanKeys files options used (position + directive.keysStart) directive.keys =
        ⟨read, told, .ok keys⟩ ∧
      scan files options (used + read.length) origin (position + 1 + Text.byteLength extent) rest =
        ⟨later, laterTold, .ok inner⟩ ∧
      inclusions = read ++ later ∧ events = told ++ directive.reports position keys ++ laterTold ∧
      parts = build keys :: inner := by
  rw [scan_yields reading yields] at ran
  generalize keysRan : scanKeys files options used (position + directive.keysStart) directive.keys = run
    at ran
  obtain ⟨read, told, result⟩ := run
  cases result with
  | error error => cases ran
  | ok keys =>
    obtain ⟨later, laterTold, mapped, sameRead, sameTold⟩ := Run.after_eq_ok ran
    obtain ⟨inner, inside, sameParts⟩ := Run.map_eq_ok mapped
    exact ⟨read, told, keys, later, laterTold, inner, rfl, inside, sameRead, sameTold, sameParts.symm⟩

/-- How an inclusion went through: the file was read and its content scanned
with what followed the directive. -/
theorem scan_inclusion_ok {text named extent rest : Text}
    (reading : Directive.read text = ⟨.inclusion named, extent, rest⟩) {inclusions : List Inclusion}
    {events : List Event} {parts : List Fragment}
    (ran : scan files options used origin position ('@' :: text) = ⟨inclusions, events, .ok parts⟩) :
    ∃ content later laterTold, used < options.includeLimit ∧
      files (options.locate named) = .ok content ∧
      scan files options (used + 1)
        (origin.splice position (position + 1 + Text.byteLength extent) (Text.byteLength content))
        0 (content ++ rest) = ⟨later, laterTold, .ok parts⟩ ∧
      inclusions = ⟨named, options.locate named⟩ :: later ∧
      events = .included (options.locate named) (Text.byteLength content) (used + 1) :: laterTold := by
  rw [scan_inclusion reading] at ran
  by_cases room : used < options.includeLimit
  · rw [if_pos room] at ran
    generalize held : files (options.locate named) = answer at ran
    cases answer with
    | error fault => cases ran
    | ok content =>
      obtain ⟨later, laterTold, inside, sameRead, sameTold⟩ := Run.after_eq_ok ran
      exact ⟨content, later, laterTold, room, rfl, inside, sameRead, sameTold⟩
  · rw [if_neg room] at ran
    cases ran

@[simp] theorem scanKeys_nil : scanKeys files options used base [] = .done [] := by
  simp [scanKeys]

theorem scanKeys_literal {key : Key} (verbatim : key.text.head? ≠ some '@') (more : List Key) :
    scanKeys files options used base (key :: more) =
      (scanKeys files options used base more).map (.literal key.text :: ·) := by
  rw [scanKeys, if_neg verbatim]

theorem scanKeys_scanned {key : Key} (scanned : key.text.head? = some '@') (more : List Key) :
    scanKeys files options used base (key :: more) =
      match scan files options used (.start (base + key.offset)) 0 key.text with
      | ⟨inclusions, events, .error error⟩ => ⟨inclusions, events, .error error⟩
      | ⟨inclusions, events, .ok parts⟩ =>
        ((scanKeys files options (used + inclusions.length) base more).map
          (Assembly.ofFragments parts :: ·)).after inclusions events := by
  rw [scanKeys]
  exact if_pos scanned

/-- How a key that was scanned went through, and the keys after it. -/
theorem scanKeys_scanned_ok {key : Key} {more : List Key} (scanned : key.text.head? = some '@')
    {inclusions : List Inclusion} {events : List Event} {found : List Fragment}
    (ran : scanKeys files options used base (key :: more) = ⟨inclusions, events, .ok found⟩) :
    ∃ read told parts later laterTold inner,
      scan files options used (.start (base + key.offset)) 0 key.text = ⟨read, told, .ok parts⟩ ∧
      scanKeys files options (used + read.length) base more = ⟨later, laterTold, .ok inner⟩ ∧
      inclusions = read ++ later ∧ events = told ++ laterTold ∧ found = .collapse parts :: inner := by
  rw [scanKeys_scanned scanned] at ran
  generalize keyRan : scan files options used (.start (base + key.offset)) 0 key.text = run at ran
  obtain ⟨read, told, result⟩ := run
  cases result with
  | error error => cases ran
  | ok parts =>
    obtain ⟨later, laterTold, mapped, sameRead, sameTold⟩ := Run.after_eq_ok ran
    obtain ⟨inner, inside, sameFound⟩ := Run.map_eq_ok mapped
    rw [Assembly.ofFragments_eq_collapse] at sameFound
    exact ⟨read, told, parts, later, laterTold, inner, rfl, inside, sameRead, sameTold, sameFound.symm⟩

/-- Scans and their key scans are proved about together: by what a step does to
the text, with whatever the step goes on to scan already settled. -/
theorem scan_induction (files : Files) (options : Options)
    {onText : Nat → Origin → Nat → Text → Prop} {onKeys : Nat → Nat → List Key → Prop}
    (nil : ∀ used origin position, onText used origin position [])
    (text : ∀ used origin position c text, c ≠ '@' →
      onText used origin (position + c.utf8Size) text → onText used origin position (c :: text))
    (unclosed : ∀ used origin position text delimiter offset extent rest,
      Directive.read text = ⟨.unclosed delimiter offset, extent, rest⟩ →
      onText used origin position ('@' :: text))
    (inclusion : ∀ used origin position text named extent rest,
      Directive.read text = ⟨.inclusion named, extent, rest⟩ →
      (∀ content, used < options.includeLimit → files (options.locate named) = .ok content →
        onText (used + 1)
          (origin.splice position (position + 1 + Text.byteLength extent) (Text.byteLength content))
          0 (content ++ rest)) →
      onText used origin position ('@' :: text))
    (yields : ∀ used origin position text directive extent rest build,
      Directive.read text = ⟨directive, extent, rest⟩ → directive.yield? = some build →
      onKeys used (position + directive.keysStart) directive.keys →
      (∀ inclusions events keys,
        scanKeys files options used (position + directive.keysStart) directive.keys =
          ⟨inclusions, events, .ok keys⟩ →
        onText (used + inclusions.length) origin (position + 1 + Text.byteLength extent) rest) →
      onText used origin position ('@' :: text))
    (noKeys : ∀ used base, onKeys used base [])
    (literalKey : ∀ used base key more, key.text.head? ≠ some '@' →
      onKeys used base more → onKeys used base (key :: more))
    (scannedKey : ∀ used base key more, key.text.head? = some '@' →
      onText used (.start (base + key.offset)) 0 key.text →
      (∀ inclusions events parts,
        scan files options used (.start (base + key.offset)) 0 key.text =
          ⟨inclusions, events, .ok parts⟩ → onKeys (used + inclusions.length) base more) →
      onKeys used base (key :: more)) :
    (∀ used origin position text, onText used origin position text) ∧
      ∀ used base keys, onKeys used base keys := by
  have halted {used origin position text directive extent rest build inclusions events error}
      (reading : Directive.read text = ⟨directive, extent, rest⟩)
      (yield : directive.yield? = some build)
      (failed : scanKeys files options used (position + directive.keysStart) directive.keys =
        ⟨inclusions, events, .error error⟩)
      (keys : onKeys used (position + directive.keysStart) directive.keys) :
      onText used origin position ('@' :: text) := by
    refine yields _ _ _ _ _ _ _ _ reading yield keys fun _ _ _ ran => ?_
    cases failed.symm.trans ran
  have resumed {used origin position text directive extent rest build inclusions events found}
      (reading : Directive.read text = ⟨directive, extent, rest⟩)
      (yield : directive.yield? = some build)
      (ended : scanKeys files options used (position + directive.keysStart) directive.keys =
        ⟨inclusions, events, .ok found⟩)
      (keys : onKeys used (position + directive.keysStart) directive.keys)
      (after : onText (used + inclusions.length) origin (position + 1 + Text.byteLength extent) rest) :
      onText used origin position ('@' :: text) := by
    refine yields _ _ _ _ _ _ _ _ reading yield keys fun _ _ _ ran => ?_
    cases ended.symm.trans ran
    exact after
  apply scan.mutual_induct files options onText onKeys
  case case1 => exact nil
  case case2 =>
    intro used origin position c rest plain after
    exact text used origin position c rest plain after
  case case3 =>
    intro used origin position c rest isAt extent tail reading after
    obtain rfl := Decidable.not_not.mp isAt
    exact resumed reading rfl scanKeys_nil (noKeys _ _) after
  case case4 =>
    intro used origin position c rest isAt extent tail reading after
    obtain rfl := Decidable.not_not.mp isAt
    exact resumed reading rfl scanKeys_nil (noKeys _ _) after
  case case5 =>
    intro used origin position c rest isAt delimiter offset extent tail reading
    obtain rfl := Decidable.not_not.mp isAt
    exact unclosed _ _ _ _ _ _ _ _ reading
  case case6 =>
    intro used origin position c rest isAt named extent tail reading _ _ fault unreadable
    obtain rfl := Decidable.not_not.mp isAt
    refine inclusion _ _ _ _ _ _ _ reading fun content _ readable => ?_
    cases unreadable.symm.trans readable
  case case7 =>
    intro used origin position c rest isAt named extent tail reading _ _ content held _ _ after
    obtain rfl := Decidable.not_not.mp isAt
    refine inclusion _ _ _ _ _ _ _ reading fun other _ readable => ?_
    cases held.symm.trans readable
    exact after
  case case8 =>
    intro used origin position c rest isAt named extent tail reading full
    obtain rfl := Decidable.not_not.mp isAt
    exact inclusion _ _ _ _ _ _ _ reading fun _ room _ => absurd room full
  case case9 =>
    intro used origin position c rest isAt lead shape extent tail reading _ _ _ failed keys
    obtain rfl := Decidable.not_not.mp isAt
    rw [Nat.add_assoc] at failed keys
    exact halted reading rfl failed keys
  case case10 =>
    intro used origin position c rest isAt lead shape extent tail reading _ _ _ ended keys after
    obtain rfl := Decidable.not_not.mp isAt
    rw [Nat.add_assoc] at ended keys
    exact resumed reading rfl ended keys after
  case case11 =>
    intro used origin position c rest isAt lead shape extent tail reading _ _ _ failed keys
    obtain rfl := Decidable.not_not.mp isAt
    rw [Nat.add_assoc] at failed keys
    exact halted reading rfl failed keys
  case case12 =>
    intro used origin position c rest isAt lead shape extent tail reading _ _ _ ended keys after
    obtain rfl := Decidable.not_not.mp isAt
    rw [Nat.add_assoc] at ended keys
    exact resumed reading rfl ended keys after
  case case13 => exact noKeys
  case case14 =>
    intro used base key more scanned _ _ _ failed inside
    refine scannedKey _ _ _ _ scanned inside fun _ _ _ ran => ?_
    cases failed.symm.trans ran
  case case15 =>
    intro used base key more scanned _ _ _ ended inside after
    refine scannedKey _ _ _ _ scanned inside fun _ _ _ ran => ?_
    cases ended.symm.trans ran
    exact after
  case case16 =>
    intro used base key more verbatim after
    exact literalKey _ _ _ _ verbatim after

end Interpolation

open Interpolation

/-- A text denotes the collapse of what its scan lists. -/
theorem interpolate_eq_map_collapse (files : Files) (options : Options) (text : Text) :
    interpolate files options text = (scan files options 0 (.start 0) 0 text).map .collapse := by
  have same : Assembly.ofFragments = Fragment.collapse := funext Assembly.ofFragments_eq_collapse
  rw [interpolate, same]

theorem interpolate_ok {files : Files} {options : Options} {text : Text} {value : Fragment}
    (ran : (interpolate files options text).result = .ok value) :
    ∃ events parts, value = .collapse parts ∧ scan files options 0 (.start 0) 0 text =
      ⟨(interpolate files options text).inclusions, events, .ok parts⟩ := by
  rw [interpolate_eq_map_collapse] at ran ⊢
  generalize scan files options 0 (.start 0) 0 text = run at ran ⊢
  obtain ⟨inclusions, events, result⟩ := run
  cases result with
  | error error => cases ran
  | ok parts =>
    cases ran
    exact ⟨events, parts, rfl, rfl⟩

/-- A text that is one expression from end to end denotes it, once its keys are scanned. -/
theorem interpolate_lone (files : Files) (options : Options) {text extent : Text} {lead : Nat}
    {shape : Shape} (reading : Directive.read text = ⟨.expression lead shape, extent, []⟩) :
    let keys := scanKeys files options 0 (lead + shape.keysOffset) shape.keys
    let run := interpolate files options ('@' :: text)
    run.inclusions = keys.inclusions ∧ run.result = keys.result.map shape.build := by
  intro keys run
  have step := @scan_yields files options 0 0 (.start 0) _ _ _ _ _ reading rfl
  simp only [Directive.keysStart, Directive.keys, Nat.zero_add] at step
  simp only [run, interpolate_eq_map_collapse, step, Origin.relocate_start, keys]
  generalize scanKeys files options 0 (lead + shape.keysOffset) shape.keys = keysRun
  obtain ⟨inclusions, events, result⟩ := keysRun
  cases result with
  | error error => exact ⟨rfl, rfl⟩
  | ok found => simp [Except.map, Fragment.collapse_singleton]

end StackTemplate
