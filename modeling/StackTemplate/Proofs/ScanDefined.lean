import StackTemplate.Proofs.CheckedScan
import StackTemplate.Proofs.Classification
import StackTemplate.Proofs.DirectiveExtent
import StackTemplate.Proofs.FragmentShape
import StackTemplate.Proofs.ScanTermination

/-! The checked scan always has a result, and it is the one that scanning by characters
gives. A scan by characters has the rest of the text in hand where a checked scan has a
buffer and a position, so the two are compared with any text in front of the rest; the
position is then a boundary of the buffer, and so is every offset counted on from it. -/
namespace StackTemplate.Checked
open Text Directive Interpolation

/-- The checked keys come to what the keys come to. -/
def KeysAgree (files : Files) (options : Options) (used base : Nat) (keys : List Key) : Prop :=
  Context.parseKeys ⟨files, options⟩ used base keys = some (scanKeys files options used base keys)

/-- The keys of a directive at a position come to the same. -/
def DirectiveAgrees (files : Files) (options : Options) (used position : Nat) (directive : Directive) : Prop :=
  KeysAgree files options used (position + directive.keysStart) directive.keys

/-- The step of what an `@` at a position comes to. -/
def Step.ofOutcome (position : Nat) : Outcome → Step
  | .character extent _ => if extent.isEmpty then .literal else .escaped
  | .expression fragment extent _ => .expression fragment (position + 1 + byteLength extent)
  | .inclusion named extent _ => .inclusion named (position + 1 + byteLength extent)

/-- Where a parsed expression ends in a buffer that has other text in front of it. -/
def place (front : Text) (parsed : Parsed) : Fragment × Nat :=
  (parsed.fragment, byteLength front + byteLength parsed.extent)

section Agreement

variable {files : Files} {options : Options} {used base : Nat} {mode : Mode}

/-- The checked lookup is the parsed one. Its keys have to agree, if it comes to scanning them. -/
theorem parseLookup_eq {front name inner : Text}
    (found : findExpression mode (name ++ '[' :: inner) = findLookup name inner)
    (agree : ∀ shape extent rest, findLookup name inner = .expression shape extent rest →
      KeysAgree files options used (base + byteLength front + shape.keysOffset) shape.keys) :
    (do
      let parsed ← Context.parseLookup ⟨files, options⟩ used (front ++ (name ++ '[' :: inner)) name
        (byteLength front + byteLength name) base
      some (parsed.map some)) =
      some ((parse files options used (base + byteLength front) mode (name ++ '[' :: inner)).map
        (Option.map (place front))) := by
  have opens := findMatching_eq .bracket (front ++ name) inner
  rw [byteLength_append, List.append_assoc, Delimiter.opener] at opens
  rw [Context.parseLookup, parse, found, opens]
  unfold findLookup at agree ⊢
  cases closed : enclosed .bracket inner with
  | none =>
    dsimp only [Option.map_none, Option.bind_eq_bind, Option.bind_some]
    rw [Nat.add_assoc base]
    rfl
  | some parts =>
    obtain ⟨inside, rest⟩ := parts
    have whole : front ++ (name ++ '[' :: inner) = (front ++ (name ++ ['['])) ++ (inside ++ ']' :: rest) := by
      simp [enclosed_append closed, Delimiter.closer]
    have starts : byteLength front + byteLength name + 1 = byteLength (front ++ (name ++ ['['])) := by
      simp [utf8Size_narrow, Nat.add_assoc]
    simp only [closed] at agree
    dsimp only [Option.map_some, Option.bind_eq_bind, Option.bind_some]
    rw [slice?_of_append whole starts (by rw [starts])]
    dsimp only [Option.bind_some]
    rw [splitKeys_eq]
    dsimp only [Option.bind_some]
    split
    · simp [Shape.keys, Shape.build, place, Run.map, Run.done, Except.map]
    · next full =>
      have same := agree _ _ _ (if_neg full)
      simp only [Shape.keys, Shape.keysOffset, KeysAgree, ← Nat.add_assoc] at same ⊢
      rw [Nat.add_assoc base (byteLength front)] at same ⊢
      rw [same]
      generalize keysRan : scanKeys files options used _ (Directive.splitKeys inside) = run
      obtain ⟨inclusions, events, result⟩ := run
      cases result with
      | error error => rfl
      | ok keys =>
        have complete := ((scan_wellShaped files options).2 _ _ _ _ _ _ keysRan).1
        have keyed : keys ≠ [] := by
          rintro rfl
          exact splitKeys_ne_nil inside (List.length_eq_zero_iff.mp complete.symm)
        dsimp only [Option.bind_some]
        rw [assembleLookup_eq name _ _ keyed]
        simp [Run.map, Except.map, Shape.build, place, utf8Size_narrow, Nat.add_assoc]

/-- A name that neither a bracket nor a dot follows is an expression by itself. -/
private theorem findExpression_bare {text name rest : Text} (cut : splitName text = (name, rest))
    (named : name ≠ []) (noBracket : ∀ inner, rest ≠ '[' :: inner) (noDot : ∀ tail, rest ≠ '.' :: tail) :
    findExpression mode text = .expression (.reference name) name rest := by
  rw [findExpression, cut]
  dsimp only
  rw [if_neg (by simpa using named)]
  split
  · next inner => exact absurd rfl (noBracket inner)
  · next tail => exact absurd rfl (noDot tail)
  · rfl

/-- The checked expression is the parsed one, with its end in the place of its rest. -/
theorem parseExpression_eq (front text : Text)
    (agree : ∀ shape extent rest, findExpression mode text = .expression shape extent rest →
      KeysAgree files options used (base + byteLength front + shape.keysOffset) shape.keys) :
    Context.parseExpression ⟨files, options⟩ used (front ++ text) (byteLength front) mode base =
      some ((parse files options used (base + byteLength front) mode text).map
        (Option.map (place front))) := by
  obtain ⟨name, rest, cut⟩ : ∃ name rest, splitName text = (name, rest) := ⟨_, _, rfl⟩
  have whole := splitName_append text
  rw [cut] at whole
  rw [Context.parseExpression, nameEnd_eq, cut]
  by_cases nameless : name = []
  · have nothing : findExpression mode text = .nothing := by simp [findExpression, cut, nameless]
    simp [parse, nothing, nameless, Run.map, Run.done, Except.map]
  · have further : byteLength front + byteLength name ≠ byteLength front := by
      have full : byteLength name ≠ 0 := fun none => nameless (byteLength_eq_zero.mp none)
      omega
    have at? {sign : Char} (narrow : sign.toNat < 128) :
        hasByte (front ++ text) (byteLength front + byteLength name) sign = true ↔
          ∃ tail, rest = sign :: tail := by
      rw [← whole, ← List.append_assoc, ← byteLength_append]
      exact hasByte_iff narrow
    rw [if_neg further, slice?_of_append (by rw [whole]) rfl rfl]
    dsimp only [Option.bind_eq_bind, Option.bind_some]
    split
    · next bracket =>
      obtain ⟨inner, rfl⟩ := (at? (by decide)).mp bracket
      have found : findExpression mode text = findLookup name inner := by
        simp [findExpression, cut, nameless]
      rw [found] at agree
      subst whole
      exact parseLookup_eq found agree
    · next unbracketed =>
      split
      · next dot =>
        obtain ⟨tail, rfl⟩ := (at? (by decide)).mp dot
        obtain ⟨shape, extent, left, dotted, keyless, parsed⟩ := parseAttribute_eq front name tail mode
        have found : findExpression mode text = .expression shape extent left := by
          simpa [findExpression, cut, nameless] using dotted
        rw [parse_keyless found keyless]
        subst whole
        rw [parsed]
        rfl
      · next undotted =>
        have noBracket (inner : Text) : rest ≠ '[' :: inner := fun same =>
          unbracketed ((at? (by decide)).mpr ⟨inner, same⟩)
        have noDot (tail : Text) : rest ≠ '.' :: tail := fun same =>
          undotted ((at? (by decide)).mpr ⟨tail, same⟩)
        rw [parse_keyless (findExpression_bare cut nameless noBracket noDot) rfl]
        rfl

/-- An expression that is parsed takes the front of its text. -/
theorem parse_map_congr {text : Text} {f g : Option Parsed → α} (nothing : f none = g none)
    (something : ∀ parsed, parsed.extent ++ parsed.rest = text → f (some parsed) = g (some parsed)) :
    (parse files options used base mode text).map f = (parse files options used base mode text).map g := by
  unfold parse
  cases found : findExpression mode text with
  | nothing => simp [Run.map, Run.done, Except.map, nothing]
  | unclosed offset => rfl
  | expression shape extent rest =>
    have same (keys : List Fragment) := something ⟨shape.build keys, extent, rest⟩ (findExpression_fits found).1
    simp only [Run.map_map]
    exact congrArg (Run.map · _) (funext same)

/-- A body is filled where its expression ends at the last byte. -/
private theorem ofBody_place {raw rest : Text} {parsed : Parsed} (position : Nat)
    (taken : parsed.extent ++ parsed.rest = trim raw) :
    Step.ofBody (trim raw) (position + 1 + byteLength ('{' :: raw ++ ['}'])) (some (place [] parsed)) =
      Step.ofOutcome position (Parsed.filling raw rest (some parsed)) := by
  obtain ⟨fragment, extent, tail⟩ := parsed
  have length := congrArg byteLength taken
  simp only [byteLength_append] at length
  cases tail with
  | nil =>
    have whole : 0 + byteLength extent = byteLength (trim raw) := by simpa using length
    exact if_pos whole
  | cons c tail =>
    have left := byteLength_cons_ne_zero c tail
    have short : 0 + byteLength extent ≠ byteLength (trim raw) := by omega
    exact if_neg short

private theorem keysAgree_of_readDelimited {position : Nat} {inner raw rest extent tail : Text}
    {shape : Shape} (closed : enclosed .brace inner = some (raw, rest))
    (unnamed : delimitedPath? (trim raw) = none)
    (found : findExpression .delimited (trim raw) = .expression shape extent tail)
    (agree : DirectiveAgrees files options used position (readDelimited inner).directive) :
    KeysAgree files options used
      (position + (2 + byteLength (leadingBlanks raw)) + shape.keysOffset) shape.keys := by
  rw [Nat.add_assoc position]
  simp only [readDelimited, closed, unnamed, found] at agree
  cases tail with
  | nil => exact agree
  | cons c tail => exact agree

/-- Braces come to the same, checked or not. -/
theorem classifyDelimited_eq (front inner : Text)
    (agree : DirectiveAgrees files options used (byteLength front) (readDelimited inner).directive) :
    Context.classifyDelimited ⟨files, options⟩ used (front ++ '@' :: '{' :: inner) (byteLength front)
        (byteLength front + 1) =
      some ((Interpolation.classifyDelimited files options used (byteLength front) inner).map
        (Step.ofOutcome (byteLength front))) := by
  have opens := findMatching_eq .brace (front ++ ['@']) inner
  have passed : byteLength (front ++ ['@']) = byteLength front + 1 := by simp [utf8Size_narrow]
  rw [List.append_assoc, List.singleton_append, Delimiter.opener, passed] at opens
  rw [Context.classifyDelimited, Interpolation.classifyDelimited, opens]
  cases closed : enclosed .brace inner with
  | none => rfl
  | some parts =>
    obtain ⟨raw, rest⟩ := parts
    have whole : front ++ '@' :: '{' :: inner = (front ++ ['@', '{']) ++ (raw ++ '}' :: rest) := by
      simp [enclosed_append closed, Delimiter.closer]
    have starts : byteLength front + 1 + 1 = byteLength (front ++ ['@', '{']) := by
      simp [utf8Size_narrow]
    have braced : byteLength ('{' :: raw ++ ['}']) = 1 + (byteLength raw + 1) := by
      simp [utf8Size_narrow]
    have ends : byteLength front + 1 + 1 + byteLength raw + 1 =
        byteLength front + 1 + byteLength ('{' :: raw ++ ['}']) := by omega
    dsimp only [Option.map_some, Option.bind_eq_bind, Option.bind_some]
    rw [slice?_of_append whole starts (by rw [starts])]
    dsimp only [Option.bind_some]
    rw [minus?_trimStart, ends]
    dsimp only [Option.bind_some]
    cases named : delimitedPath? (trim raw) with
    | some path => rfl
    | none =>
      have base : byteLength front + 1 + 1 + byteLength (leadingBlanks raw) =
          byteLength front + (2 + byteLength (leadingBlanks raw)) := by omega
      have parsed := @parseExpression_eq files options used
        (byteLength front + (2 + byteLength (leadingBlanks raw))) .delimited [] (trim raw)
        fun shape extent tail found => keysAgree_of_readDelimited closed named found agree
      rw [List.nil_append, byteLength_nil, Nat.add_zero] at parsed
      dsimp only
      rw [base, parsed]
      dsimp only [Option.bind_some]
      rw [Run.map_map, Run.map_map]
      exact congrArg some (parse_map_congr rfl fun parsed taken => ofBody_place _ taken)

/-- The start of a name comes to the same, checked or not. -/
theorem classifyGreedy_eq (front text : Text)
    (agree : DirectiveAgrees files options used (byteLength front) (readGreedy text).directive) :
    Context.classifyGreedy ⟨files, options⟩ used (front ++ '@' :: text) (byteLength front + 1) =
      some ((Interpolation.classifyGreedy files options used (byteLength front) text).map
        (Step.ofOutcome (byteLength front))) := by
  have whole : front ++ '@' :: text = (front ++ ['@']) ++ text := by simp
  have passed : byteLength front + 1 = byteLength (front ++ ['@']) := by simp [utf8Size_narrow]
  rw [Context.classifyGreedy, Interpolation.classifyGreedy, whole, passed, greedyPath_eq]
  unfold readGreedy at agree
  cases named : greedyPath? text with
  | some path => simp [Run.map, Run.done, Except.map, Step.ofOutcome, utf8Size_narrow]
  | none =>
    have parsed := @parseExpression_eq files options used 0 .greedy (front ++ ['@']) text ?_
    · dsimp only [Option.map_none, Option.bind_eq_bind, Option.bind_some]
      rw [parsed]
      dsimp only [Option.bind_some]
      rw [Run.map_map, Run.map_map, Nat.zero_add]
      refine congrArg some (parse_map_congr rfl fun parsed _ => ?_)
      simp [Step.ofGreedy, Step.ofOutcome, Parsed.leading, place, utf8Size_narrow]
    · intro shape extent tail found
      simp only [named, found] at agree
      simpa [DirectiveAgrees, keysStart, Directive.keys, utf8Size_narrow, Nat.add_assoc] using agree

/-- The checked step at an `@` is the step of what it comes to. -/
theorem classify_eq (front text : Text)
    (agree : DirectiveAgrees files options used (byteLength front) (Directive.read text).directive) :
    Context.classify ⟨files, options⟩ used (front ++ '@' :: text) (byteLength front) =
      some ((Interpolation.classify files options used (byteLength front) text).map
        (Step.ofOutcome (byteLength front))) := by
  have whole : front ++ '@' :: text = (front ++ ['@']) ++ text := by simp
  have passed : byteLength front + 1 = byteLength (front ++ ['@']) := by simp [utf8Size_narrow]
  rw [Context.classify, Interpolation.classify.eq_def, slice?_end whole passed]
  unfold Directive.read at agree
  dsimp only [Option.bind_eq_bind, Option.bind_some]
  cases text with
  | nil => rfl
  | cons c rest =>
    dsimp only at agree ⊢
    split
    · rfl
    · next notAt =>
      rw [if_neg notAt] at agree
      split
      · next brace =>
        subst brace
        rw [if_pos rfl] at agree
        exact classifyDelimited_eq front rest agree
      · next notBrace =>
        rw [if_neg notBrace] at agree
        split
        · next starts =>
          rw [if_pos starts] at agree
          exact classifyGreedy_eq front (c :: rest) agree
        · rfl

/-- The fragment that parts denote after those already collected. -/
def finishFrom (builder : Assembly) (parts : List Fragment) : Fragment :=
  (parts.foldl Assembly.add builder).finish

/-- The checked scan of a text, whatever stands in front of it in its buffer and whatever
has been collected, comes to what the scan comes to. -/
def ScanAgrees (files : Files) (options : Options) (used : Nat) (origin : Origin) (position : Nat)
    (text : Text) : Prop :=
  ∀ front builder, byteLength front = position →
    Context.scanFrom ⟨files, options⟩ used origin (front ++ text) position builder =
      some ((scan files options used origin position text).map (finishFrom builder))

variable {origin : Origin} {builder : Assembly}

theorem addText_append (first second : Text) :
    (builder.addText first).addText second = builder.addText (first ++ second) := by
  simp [Assembly.addText]

theorem addText_nil : builder.addText [] = builder := rfl

theorem scanAgrees_nil (position : Nat) : ScanAgrees files options used origin position [] := by
  rintro front builder rfl
  rw [Context.scanFrom, slice?_end rfl rfl, scan_nil]
  rfl

/-- One character of text is passed over. -/
theorem scanFrom_text {c : Char} (plain : c ≠ '@') (front text : Text) :
    Context.scanFrom ⟨files, options⟩ used origin (front ++ c :: text) (byteLength front) builder =
      Context.scanFrom ⟨files, options⟩ used origin (front ++ c :: text) (byteLength front + c.utf8Size)
        (builder.addText [c]) := by
  have whole : front ++ c :: text = (front ++ [c]) ++ text := by simp
  have passed : byteLength front + c.utf8Size = byteLength (front ++ [c]) := by simp
  rw [Context.scanFrom, slice?_end rfl rfl, Context.scanFrom, slice?_end whole passed]
  dsimp only [Option.bind_eq_bind, Option.bind_some]
  have missed : (c == '@') = false := by simpa using plain
  simp only [offsetOf?, missed]
  cases found : offsetOf? (· == '@') text with
  | none => simp [addText_append]
  | some i =>
    obtain ⟨piece, rest, rfl, rfl⟩ := isBoundary_offsetOf? found
    have short : slice? (piece ++ rest) 0 (byteLength piece) = some piece :=
      slice?_eq_some_iff.mpr ⟨[], rest, rfl, rfl, Nat.zero_add _⟩
    have long : slice? (c :: (piece ++ rest)) 0 (c.utf8Size + byteLength piece) = some (c :: piece) :=
      slice?_eq_some_iff.mpr ⟨[], rest, rfl, rfl, Nat.zero_add _⟩
    simp [short, long, addText_append, Nat.add_assoc]

theorem scanFrom_at {front text : Text}
    (agree : DirectiveAgrees files options used (byteLength front) (Directive.read text).directive)
    (onward : ∀ inclusions events outcome,
      Interpolation.classify files options used (byteLength front) text = ⟨inclusions, events, .ok outcome⟩ →
      Context.proceed ⟨files, options⟩ (used + inclusions.length) origin (front ++ '@' :: text)
          (byteLength front) builder (Step.ofOutcome (byteLength front) outcome) =
        some ((resume files options (used + inclusions.length) origin (byteLength front) outcome).map
          (finishFrom builder))) :
    Context.scanFrom ⟨files, options⟩ used origin (front ++ '@' :: text) (byteLength front) builder =
      some ((scan files options used origin (byteLength front) ('@' :: text)).map
        (finishFrom builder)) := by
  rw [Context.scanFrom, slice?_end rfl rfl, scan_classify]
  have here : offsetOf? (· == '@') ('@' :: text) = some 0 := rfl
  have before : slice? ('@' :: text) 0 0 = some [] := slice?_eq_some_iff.mpr ⟨[], '@' :: text, rfl, rfl, rfl⟩
  dsimp only [Option.bind_eq_bind, Option.bind_some]
  rw [here]
  dsimp only
  rw [before, Nat.add_zero, classify_eq front text agree]
  dsimp only [Option.bind_some]
  generalize Interpolation.classify files options used (byteLength front) text = run at onward ⊢
  obtain ⟨inclusions, events, result⟩ := run
  cases result with
  | error error =>
    dsimp only [Run.map, Except.map]
    rw [relocate?_eq]
    rfl
  | ok outcome =>
    dsimp only [Run.map, Except.map]
    rw [addText_nil, onward _ _ _ rfl]
    rfl

private theorem proceed_character {buffer extent : Text} {start : Nat} (sign : extent = [] ∨ extent = ['@'])
    (rest : Text) :
    Context.proceed ⟨files, options⟩ used origin buffer start builder
        (Step.ofOutcome start (.character extent rest)) =
      Context.scanFrom ⟨files, options⟩ used origin buffer (start + 1 + byteLength extent)
        (builder.addText ['@']) := by
  rcases sign with rfl | rfl
  · rw [Context.proceed.eq_def]
    rfl
  · rw [Context.proceed.eq_def]
    rfl

private theorem add_expression {fragment : Fragment} (expressive : fragment.isLiteral = false) :
    builder.add fragment = builder.addExpression fragment := by
  cases fragment with
  | literal text => cases expressive
  | _ => rfl

/-- A directive that yields a fragment is passed over. -/
theorem proceed_yields {front text extent rest : Text} {directive : Directive}
    {build : List Fragment → Fragment} (reading : Directive.read text = ⟨directive, extent, rest⟩)
    (yields : directive.yield? = some build)
    (later : ScanAgrees files options used origin (byteLength front + 1 + byteLength extent) rest)
    (keys : List Fragment) :
    Context.proceed ⟨files, options⟩ used origin (front ++ '@' :: text) (byteLength front) builder
        (Step.ofOutcome (byteLength front) (Outcome.ofDirective extent rest directive keys)) =
      some ((resume files options used origin (byteLength front)
        (Outcome.ofDirective extent rest directive keys)).map (finishFrom builder)) := by
  have taken := Directive.takes_read text
  have whole := Directive.read_append text
  rw [reading] at taken whole
  have passed : byteLength (front ++ '@' :: extent) = byteLength front + 1 + byteLength extent := by
    simp [utf8Size_narrow, Nat.add_assoc]
  have onward (builder : Assembly) := later _ builder passed
  rw [List.append_assoc, List.cons_append, whole] at onward
  have character (sign : extent = [] ∨ extent = ['@']) :
      Context.proceed ⟨files, options⟩ used origin (front ++ '@' :: text) (byteLength front) builder
          (Step.ofOutcome (byteLength front) (.character extent rest)) =
        some ((resume files options used origin (byteLength front) (.character extent rest)).map
          (finishFrom builder)) := by
    rw [proceed_character sign, onward, resume, Run.map_map]
    rfl
  have expression (shape : Shape) :
      Context.proceed ⟨files, options⟩ used origin (front ++ '@' :: text) (byteLength front) builder
          (Step.ofOutcome (byteLength front) (.expression (shape.build keys) extent rest)) =
        some ((resume files options used origin (byteLength front)
          (.expression (shape.build keys) extent rest)).map (finishFrom builder)) := by
    rw [Context.proceed.eq_def, resume, Run.map_after, Run.map_map]
    dsimp only [Step.ofOutcome]
    rw [onward, ← add_expression (shape.build_cases keys).1]
    rfl
  cases taken with
  | inclusion named extent => cases yields
  | unclosed delimiter offset => cases yields
  | escape => exact character (.inr rfl)
  | plain => exact character (.inl rfl)
  | rejected lead shape => exact character (.inl rfl)
  | greedy lead spells => exact expression _
  | delimited lead closed spells => exact expression _

theorem readInclude_eq (bounded : options.includeLimit < 2 ^ 64 - 1) (within : used ≤ options.includeLimit)
    (named : Text) :
    Context.readInclude ⟨files, options⟩ used named = some (
      if used < options.includeLimit then
        match files (options.locate named) with
        | .error fault =>
          (Run.fail (.unreadableInclusion (options.locate named) fault)).after
            [⟨named, options.locate named⟩] []
        | .ok content =>
          (Run.done content).after [⟨named, options.locate named⟩]
            [.included (options.locate named) (byteLength content) (used + 1)]
      else .fail (.tooManyInclusions options.includeLimit)) := by
  rw [Context.readInclude, countNext?, if_pos (by omega)]
  dsimp only [Option.bind_eq_bind, Option.bind_some]
  by_cases room : used < options.includeLimit
  · rw [if_neg (by omega), if_pos room]
    cases files (options.locate named) with
    | error fault => rfl
    | ok content => rfl
  · rw [if_pos (by omega), if_neg room]

/-- An inclusion goes on with the content of its file in the place of its own text. -/
theorem proceed_inclusion (bounded : options.includeLimit < 2 ^ 64 - 1)
    (within : used ≤ options.includeLimit) {front text named extent rest : Text}
    (reading : Directive.read text = ⟨.inclusion named, extent, rest⟩)
    (later : ∀ content, used < options.includeLimit → files (options.locate named) = .ok content →
      ScanAgrees files options (used + 1)
        (origin.splice (byteLength front) (byteLength front + 1 + byteLength extent) (byteLength content))
        0 (content ++ rest)) :
    Context.proceed ⟨files, options⟩ used origin (front ++ '@' :: text) (byteLength front) builder
        (Step.ofOutcome (byteLength front) (.inclusion named extent rest)) =
      some ((resume files options used origin (byteLength front) (.inclusion named extent rest)).map
        (finishFrom builder)) := by
  have whole := Directive.read_append text
  rw [reading] at whole
  rw [Context.proceed.eq_def, resume]
  dsimp only [Step.ofOutcome]
  rw [readInclude_eq bounded within]
  dsimp only [Option.bind_eq_bind, Option.bind_some]
  by_cases room : used < options.includeLimit
  · rw [if_pos room, if_pos room]
    cases held : files (options.locate named) with
    | error fault => rfl
    | ok content =>
      have remainder : slice? (front ++ '@' :: text) (byteLength front + 1 + byteLength extent)
          (byteLength (front ++ '@' :: text)) = some rest := by
        apply slice?_end (by rw [← whole, ← List.cons_append, ← List.append_assoc])
        simp [utf8Size_narrow, Nat.add_assoc]
      have onward := later content room held [] builder rfl
      dsimp only [Run.after, Run.done]
      rw [splice?_eq, remainder]
      dsimp only [Option.bind_some]
      rw [List.nil_append] at onward
      simp only [List.append_nil, List.length_singleton, onward]
      rfl
  · rw [if_neg room, if_neg room]
    rfl

theorem keysAgree_nil : KeysAgree files options used base [] := by
  rw [KeysAgree, Context.parseKeys, scanKeys_nil]

/-- A call that begins within the limit ends within it. -/
private theorem counted_within {call : Call} (within : call.used ≤ options.includeLimit)
    {inclusions : List Inclusion} {events : List Event} {result : Except Error (List Fragment)}
    (ran : call.run files options = ⟨inclusions, events, result⟩) :
    call.used + inclusions.length ≤ options.includeLimit := by
  have counted := @inclusions_within files options call
  rw [ran, Nat.max_eq_right within] at counted
  exact counted

theorem scanAgrees_text {c : Char} (plain : c ≠ '@') {position : Nat} {text : Text}
    (later : ScanAgrees files options used origin (position + c.utf8Size) text) :
    ScanAgrees files options used origin position (c :: text) := by
  rintro front builder rfl
  have onward := later (front ++ [c]) (builder.addText [c]) (by simp)
  rw [List.append_assoc, List.singleton_append] at onward
  rw [scanFrom_text plain, onward, scan_text plain, Run.map_map]
  rfl

end Agreement

/-- Checked scans and checked keys agree, as far as the count of inclusions is within the limit. -/
theorem agreement (files : Files) {options : Options} (bounded : options.includeLimit < 2 ^ 64 - 1) :
    (∀ used origin position text, used ≤ options.includeLimit →
      ScanAgrees files options used origin position text) ∧
    ∀ used base keys, used ≤ options.includeLimit → KeysAgree files options used base keys := by
  apply scan_induction files options
  case nil =>
    intro used origin position within
    exact scanAgrees_nil position
  case text =>
    intro used origin position c text plain later within
    exact scanAgrees_text plain (later within)
  case unclosed =>
    rintro used origin position text delimiter offset extent rest reading within front builder rfl
    apply scanFrom_at
    · rw [reading]
      exact keysAgree_nil
    · intro inclusions events outcome ran
      rw [classify_eq_settle, reading] at ran
      cases ran
  case inclusion =>
    rintro used origin position text named extent rest reading later within front builder rfl
    apply scanFrom_at
    · rw [reading]
      exact keysAgree_nil
    · intro inclusions events outcome ran
      rw [classify_eq_settle, reading] at ran
      dsimp only [settle, Directive.keys] at ran
      rw [scanKeys_nil] at ran
      cases ran
      exact proceed_inclusion bounded within reading fun content room held =>
        later content room held (by omega)
  case yields =>
    rintro used origin position text directive extent rest build reading yields keys later within
      front builder rfl
    apply scanFrom_at
    · rw [reading]
      exact keys within
    · intro inclusions events outcome ran
      rw [classify_eq_settle, reading, settle_yields yields] at ran
      obtain ⟨found, keysRan, rfl⟩ := Run.map_eq_ok ran
      exact proceed_yields reading yields
        (later _ _ _ keysRan (@counted_within files options (.keys _ _ _) within _ _ _ keysRan)) found
  case noKeys =>
    intro used base within
    exact keysAgree_nil
  case literalKey =>
    intro used base key more verbatim later within
    rw [KeysAgree, Context.parseKeys.eq_def, scanKeys_literal verbatim]
    dsimp only
    rw [if_neg verbatim, later within]
    rfl
  case scannedKey =>
    intro used base key more scanned inside later within
    rw [KeysAgree, Context.parseKeys.eq_def, scanKeys_scanned scanned]
    have here := inside within [] .empty rfl
    rw [List.nil_append] at here
    dsimp only
    rw [if_pos scanned, here]
    dsimp only [Option.bind_eq_bind, Option.bind_some]
    generalize keyRan : scan files options used (.start (base + key.offset)) 0 key.text = run
    obtain ⟨inclusions, events, result⟩ := run
    cases result with
    | error error => rfl
    | ok parts =>
      dsimp only [Run.map, Except.map]
      rw [later _ _ _ keyRan (@counted_within files options (.text _ _ _ _) within _ _ _ keyRan)]
      rfl

/-- Interpolation by byte offsets always has a result, and it is the one of interpolation
by characters: no slice is taken outside the text or inside a character, nothing is
subtracted below zero and nothing is read past an end, whatever the text, the files and
the options. The count of inclusions goes one past the limit, so the limit is not the
last number of a machine word. -/
theorem interpolate_defined (files : Files) {options : Options}
    (bounded : options.includeLimit < 2 ^ 64 - 1) (text : Text) :
    interpolate files options text = some (StackTemplate.interpolate files options text) := by
  have scanned := (agreement files bounded).1 0 (.start 0) 0 text (Nat.zero_le _) [] .empty rfl
  rw [List.nil_append] at scanned
  exact scanned

/-- Blanks of two and three bytes around a body and a key and at the end of a path, and
letters of two bytes in the input and in a file. -/
theorem interpolate_defined_wide_blanks :
    let files : Files := fun path => if path = ['f'] then .ok ['é', '@', 'B'] else .error .notFound
    let text := ['ü', '@', '{', '\u00a0', 'A', '[', '\u3000', 'k', ']', '\u00a0', '}', '@', 'f', 'i',
      'l', 'e', ':', '/', '/', 'f', '\u2003', 'z']
    (interpolate files {} text).map Run.result = some (.ok (.join [.literal ['ü'],
      .byConvention ['A'] (.literal ['k']), .literal ['é'], .reference ['B'],
      .literal ['\u2003', 'z']])) := by
  intro files text
  rw [interpolate_defined files (by decide) text]
  cbv

end StackTemplate.Checked
