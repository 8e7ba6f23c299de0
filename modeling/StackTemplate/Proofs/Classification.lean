import StackTemplate.Proofs.BalancedText
import StackTemplate.Proofs.ScanSteps

/-! What an `@` comes to, with the keys of its expression scanned. Reading a directive
and scanning its keys are two steps of a scan; here they are one, for text in braces and
for text without them, and a scan goes on from what comes out. -/
namespace StackTemplate.Interpolation
open Directive (Mode Key isNameStart_unsigned)

/-- An expression at the front of a text, with its keys scanned. -/
structure Parsed where
  fragment : Fragment
  extent : Text
  rest : Text

/-- Parses the expression at the front of a text that starts at byte `base` of its
buffer, if a name starts there. -/
def parse (files : Files) (options : Options) (used base : Nat) (mode : Mode) (text : Text) :
    Run (Option Parsed) :=
  match Directive.findExpression mode text with
  | .nothing => .done none
  | .unclosed offset => .fail (.unterminated .bracket (base + offset))
  | .expression shape extent rest =>
    (scanKeys files options used (base + shape.keysOffset) shape.keys).map fun keys =>
      some ⟨shape.build keys, extent, rest⟩

/-- What an `@` comes to, the text it takes and what follows. -/
inductive Outcome where
  /-- The `@` stands for itself. -/
  | character (extent rest : Text)
  | expression (fragment : Fragment) (extent rest : Text)
  | inclusion (named extent rest : Text)

/-- Text in braces is one expression from end to end, or the `@` is text. -/
def Parsed.filling (raw rest : Text) : Option Parsed → Outcome
  | some ⟨fragment, _, []⟩ => .expression fragment ('{' :: raw ++ ['}']) rest
  | _ => .character [] ('{' :: raw ++ '}' :: rest)

/-- Without braces an expression ends where the grammar says. -/
def Parsed.leading (text : Text) : Option Parsed → Outcome
  | some ⟨fragment, extent, rest⟩ => .expression fragment extent rest
  | none => .character [] text

/-- What an `@` and an opening brace come to. -/
def classifyDelimited (files : Files) (options : Options) (used position : Nat) (inner : Text) :
    Run Outcome :=
  match Directive.enclosed .brace inner with
  | none => .fail (.unterminated .brace position)
  | some (raw, rest) =>
    match Directive.delimitedPath? (Text.trim raw) with
    | some named => .done (.inclusion named ('{' :: raw ++ ['}']) rest)
    | none =>
      (parse files options used (position + (2 + Text.byteLength (Text.leadingBlanks raw))) .delimited
        (Text.trim raw)).map (Parsed.filling raw rest)

/-- What an `@` and the start of a name come to. -/
def classifyGreedy (files : Files) (options : Options) (used position : Nat) (text : Text) :
    Run Outcome :=
  match Directive.greedyPath? text with
  | some named =>
    .done (.inclusion named (Directive.scheme ++ named) (text.drop (Directive.scheme ++ named).length))
  | none => (parse files options used (position + 1) .greedy text).map (Parsed.leading text)

/-- What the `@` at byte `position` of a buffer comes to, by the text that follows it. -/
def classify (files : Files) (options : Options) (used position : Nat) (text : Text) : Run Outcome :=
  match text with
  | [] => .done (.character [] [])
  | c :: rest =>
    if c = '@' then .done (.character ['@'] rest)
    else if c = '{' then classifyDelimited files options used position rest
    else if Directive.isNameStart c then classifyGreedy files options used position (c :: rest)
    else .done (.character [] (c :: rest))

/-- How a scan goes on once it is known what an `@` came to. -/
def resume (files : Files) (options : Options) (used : Nat) (origin : Origin) (position : Nat) :
    Outcome → Run (List Fragment)
  | .character extent rest =>
    (scan files options used origin (position + 1 + Text.byteLength extent) rest).map
      (.literal ['@'] :: ·)
  | .expression fragment extent rest =>
    ((scan files options used origin (position + 1 + Text.byteLength extent) rest).map
      (fragment :: ·)).after [] [.expression fragment position]
  | .inclusion named extent rest =>
    if used < options.includeLimit then
      match files (options.locate named) with
      | .error fault =>
        (Run.fail (.unreadableInclusion (options.locate named) fault)).after
          [⟨named, options.locate named⟩] []
      | .ok content =>
        (scan files options (used + 1)
          (origin.splice position (position + 1 + Text.byteLength extent) (Text.byteLength content))
          0 (content ++ rest)).after [⟨named, options.locate named⟩]
            [.included (options.locate named) (Text.byteLength content) (used + 1)]
    else .fail (.tooManyInclusions options.includeLimit)

/-- What a directive comes to once its keys are scanned. -/
def Outcome.ofDirective (extent rest : Text) : Directive → List Fragment → Outcome
  | .expression _ shape, keys => .expression (shape.build keys) extent rest
  | .inclusion named, _ => .inclusion named extent rest
  | _, _ => .character extent rest

/-- What a reading comes to: its keys are scanned, unless a delimiter is never closed. -/
def settle (files : Files) (options : Options) (used position : Nat) :
    Directive.Reading → Run Outcome
  | ⟨.unclosed delimiter offset, _, _⟩ => .fail (.unterminated delimiter (position + offset))
  | ⟨directive, extent, rest⟩ =>
    (scanKeys files options used (position + directive.keysStart) directive.keys).map
      (Outcome.ofDirective extent rest directive)

variable {files : Files} {options : Options} {used position : Nat}

theorem settle_yields {directive : Directive} {build : List Fragment → Fragment}
    (yields : directive.yield? = some build) (extent rest : Text) :
    settle files options used position ⟨directive, extent, rest⟩ =
      (scanKeys files options used (position + directive.keysStart) directive.keys).map
        (Outcome.ofDirective extent rest directive) := by
  cases directive with
  | unclosed delimiter offset => cases yields
  | inclusion named => cases yields
  | _ => rfl

private theorem settle_keyless {directive : Directive}
    (closed : ∀ delimiter offset, directive ≠ .unclosed delimiter offset) (keyless : directive.keys = [])
    (extent rest : Text) :
    settle files options used position ⟨directive, extent, rest⟩ =
      .done (Outcome.ofDirective extent rest directive []) := by
  cases directive with
  | unclosed delimiter offset => exact absurd rfl (closed delimiter offset)
  | _ =>
    simp only [settle, keyless, scanKeys_nil]
    rfl

private theorem settle_escape (extent rest : Text) :
    settle files options used position ⟨.escape, extent, rest⟩ = .done (.character extent rest) :=
  settle_keyless (fun _ _ => Directive.noConfusion) rfl extent rest

private theorem settle_plain (extent rest : Text) :
    settle files options used position ⟨.plain, extent, rest⟩ = .done (.character extent rest) :=
  settle_keyless (fun _ _ => Directive.noConfusion) rfl extent rest

private theorem settle_inclusion (named extent rest : Text) :
    settle files options used position ⟨.inclusion named, extent, rest⟩ =
      .done (.inclusion named extent rest) :=
  settle_keyless (fun _ _ => Directive.noConfusion) rfl extent rest

private theorem classifyDelimited_eq_settle (inner : Text) :
    classifyDelimited files options used position inner =
      settle files options used position (Directive.readDelimited inner) := by
  unfold classifyDelimited Directive.readDelimited
  cases closed : Directive.enclosed .brace inner with
  | none => rfl
  | some parts =>
    obtain ⟨raw, rest⟩ := parts
    have whole : inner = raw ++ '}' :: rest := Directive.enclosed_append closed
    dsimp only
    cases Directive.delimitedPath? (Text.trim raw) with
    | some named => exact (settle_inclusion named _ rest).symm
    | none =>
      dsimp only [parse]
      cases Directive.findExpression .delimited (Text.trim raw) with
      | nothing =>
        rw [whole]
        exact (settle_plain [] _).symm
      | unclosed offset =>
        simp only [Directive.Reading.bare, settle, Nat.add_assoc]
        rfl
      | expression shape extent tail =>
        rw [whole]
        dsimp only
        rw [Run.map_map, Nat.add_assoc position]
        cases tail <;> rfl

private theorem classifyGreedy_eq_settle (text : Text) :
    classifyGreedy files options used position text =
      settle files options used position (Directive.readGreedy text) := by
  unfold classifyGreedy Directive.readGreedy
  cases Directive.greedyPath? text with
  | some named => exact (settle_inclusion named _ _).symm
  | none =>
    dsimp only [parse]
    cases Directive.findExpression .greedy text with
    | nothing => exact (settle_plain [] text).symm
    | unclosed offset =>
      simp only [Directive.Reading.bare, settle, Nat.add_assoc]
      rfl
    | expression shape extent rest =>
      dsimp only
      rw [Run.map_map, Nat.add_assoc position]
      rfl

/-- Classifying is reading the directive and scanning its keys. -/
theorem classify_eq_settle (text : Text) :
    classify files options used position text =
      settle files options used position (Directive.read text) := by
  unfold classify Directive.read
  cases text with
  | nil => exact (settle_plain [] []).symm
  | cons c rest =>
    dsimp only
    split
    · exact (settle_escape ['@'] rest).symm
    · split
      · exact classifyDelimited_eq_settle rest
      · split
        · exact classifyGreedy_eq_settle (c :: rest)
        · exact (settle_plain [] (c :: rest)).symm

private theorem resume_ofDirective {directive : Directive} {build : List Fragment → Fragment}
    (yields : directive.yield? = some build) (origin : Origin) (extent rest : Text)
    (keys : List Fragment) :
    resume files options used origin position (Outcome.ofDirective extent rest directive keys) =
      ((scan files options used origin (position + 1 + Text.byteLength extent) rest).map
        (build keys :: ·)).after [] (directive.reports position keys) := by
  cases directive with
  | unclosed delimiter offset => cases yields
  | inclusion named => cases yields
  | _ =>
    cases yields
    rfl

/-- A scan goes on from what an `@` comes to, with the inclusions of its keys counted. -/
theorem scan_classify (origin : Origin) (text : Text) :
    scan files options used origin position ('@' :: text) =
      match classify files options used position text with
      | ⟨inclusions, events, .error error⟩ => ⟨inclusions, events, .error (origin.relocate error)⟩
      | ⟨inclusions, events, .ok outcome⟩ =>
        (resume files options (used + inclusions.length) origin position outcome).after
          inclusions events := by
  rw [classify_eq_settle]
  rcases reading : Directive.read text with ⟨directive, extent, rest⟩
  cases yields : directive.yield? with
  | some build =>
    rw [scan_yields reading yields, settle_yields yields]
    generalize scanKeys files options used (position + directive.keysStart) directive.keys = run
    obtain ⟨inclusions, events, result⟩ := run
    cases result with
    | error error => rfl
    | ok keys =>
      dsimp only [Run.map, Except.map]
      rw [resume_ofDirective yields, Run.after_after, List.append_nil]
      rfl
  | none =>
    cases directive with
    | unclosed delimiter offset => exact scan_unclosed reading
    | inclusion named =>
      rw [scan_inclusion reading, settle_inclusion]
      rfl
    | _ => cases yields

/-- Braces that match decide by their body alone, unless it names a file. -/
theorem classify_braced {raw : Text} (balanced : Directive.Balanced .brace raw)
    (unnamed : Directive.delimitedPath? (Text.trim raw) = none) (rest : Text) :
    classify files options used position ('{' :: raw ++ '}' :: rest) =
      (parse files options used (position + (2 + Text.byteLength (Text.leadingBlanks raw))) .delimited
        (Text.trim raw)).map (Parsed.filling raw rest) := by
  have closed := Directive.enclosed_balanced balanced rest
  simp only [Delimiter.closer] at closed
  simp [classify, classifyDelimited, closed, unnamed]

/-- The start of a name decides by what can be parsed there, unless a file is named. -/
theorem classify_unbraced {c : Char} {text : Text} (start : Directive.isNameStart c = true)
    (unnamed : Directive.greedyPath? (c :: text) = none) :
    classify files options used position (c :: text) =
      (parse files options used (position + 1) .greedy (c :: text)).map
        (Parsed.leading (c :: text)) := by
  obtain ⟨notAt, notBrace⟩ := isNameStart_unsigned start
  simp [classify, classifyGreedy, notAt, notBrace, start, unnamed]

/-- An expression without keys is parsed by itself. -/
theorem parse_keyless {mode : Mode} {text extent rest : Text} {shape : Shape}
    (found : Directive.findExpression mode text = .expression shape extent rest)
    (keyless : shape.keys = []) (base : Nat) :
    parse files options used base mode text = .done (some ⟨shape.build [], extent, rest⟩) := by
  rw [parse, found]
  simp only [keyless, scanKeys_nil]
  rfl

end StackTemplate.Interpolation
