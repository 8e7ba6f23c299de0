import StackTemplate.Interpolation
import StackTemplate.Proofs.CheckedGrammar

/-! Interpolation of a buffer that is addressed by bytes. The scan keeps a position in its
buffer, finds directives and keys by offset and cuts them out; every slice, difference and
index in it is checked, and the count of inclusions is a machine word. Where a check fails
there is no result, and neither is there where the recursion does not end. -/
namespace StackTemplate.Checked
open Text Directive Interpolation

/-- The next count, as far as a machine word goes. -/
def countNext? (count : Nat) : Option Nat :=
  if count + 1 < 2 ^ 64 then some (count + 1) else none

/-- What one interpolation and the scans inside it share. -/
structure Context where
  files : Files
  options : Options

/-- What an `@` turned out to be. An offset is where the text that it takes ends. -/
inductive Step where
  | escaped
  | literal
  | expression (fragment : Fragment) (finish : Nat)
  | inclusion (named : Text) (finish : Nat)

/-- The input offset that a buffer position is reported at. -/
def offset? (origin : Origin) (position : Nat) : Option Nat :=
  if position < origin.included then some origin.site
  else do
    let beyond ← minus? position origin.included
    some (origin.resume + beyond)

/-- The origin after the bytes up to `finish` gave way to the content of a file. -/
def splice? (origin : Origin) (start finish contentLength : Nat) : Option Origin :=
  if finish ≤ origin.included then do
    let left ← minus? origin.included finish
    some { origin with included := contentLength + left }
  else do
    let site ← offset? origin start
    let resume ← offset? origin finish
    some { included := contentLength, site, resume }

/-- An error placed in the buffer, placed in the input instead. -/
def relocate? (origin : Origin) : Error → Option Error
  | .unterminated delimiter position => do
    let offset ← offset? origin position
    some (.unterminated delimiter offset)
  | error => some error

/-- Reads a file to include, and counts it. -/
def Context.readInclude (context : Context) (used : Nat) (named : Text) : Option (Run Text) := do
  let count ← countNext? used
  let limit := context.options.includeLimit
  if limit < count then some (.fail (.tooManyInclusions limit))
  else
    let path := context.options.locate named
    match context.files path with
    | .error fault => some ((Run.fail (.unreadableInclusion path fault)).after [⟨named, path⟩] [])
    | .ok content =>
      some ((Run.done content).after [⟨named, path⟩] [.included path (byteLength content) count])

/-- The lookup with the keys that were found, and where it ends. One key is taken by its index. -/
def assembleLookup (name : Text) (opening close : Nat) (keys : List Fragment) : Option (Fragment × Nat) :=
  if keys.length = 1 then do
    let key ← keys[0]?
    some (.byConvention name key, close + 1)
  else match Fragment.explicit name keys with
    | some lookup => some (lookup, close + 1)
    | none => some (.reference name, opening)

/-- What the expression of a pair of braces comes to. -/
def Step.ofBody (body : Text) (finish : Nat) : Option (Fragment × Nat) → Step
  | some (fragment, consumed) => if consumed = byteLength body then .expression fragment finish else .literal
  | none => .literal

/-- What an expression without braces comes to. -/
def Step.ofGreedy : Option (Fragment × Nat) → Step
  | some (fragment, finish) => .expression fragment finish
  | none => .literal

/-- Whether the byte at an offset is the given sign. -/
def hasByte (text : Text) (offset : Nat) (sign : Char) : Bool :=
  (bytes text)[offset]?.map Char.ofUInt8 == some sign

mutual

/-- Scans a buffer from a position on. -/
def Context.scanFrom (context : Context) (used : Nat) (origin : Origin) (buffer : Text)
    (position : Nat) (builder : Assembly) : Option (Run Fragment) := do
  let rest ← slice? buffer position (byteLength buffer)
  match offsetOf? (· == '@') rest with
  | none => some (.done (builder.addText rest).finish)
  | some i =>
    let text ← slice? rest 0 i
    let classified ← context |>.classify used buffer (position + i)
    match classified.result with
    | .error error =>
      let relocated ← relocate? origin error
      some ⟨classified.inclusions, classified.events, .error relocated⟩
    | .ok step =>
      let run ← context |>.proceed (used + classified.inclusions.length) origin buffer (position + i)
        (builder.addText text) step
      some (run.after classified.inclusions classified.events)
partial_fixpoint

/-- Goes on from what the `@` at `start` turned out to be. -/
def Context.proceed (context : Context) (used : Nat) (origin : Origin) (buffer : Text)
    (start : Nat) (builder : Assembly) (step : Step) : Option (Run Fragment) :=
  match step with
  | .escaped => context |>.scanFrom used origin buffer (start + 2) (builder.addText ['@'])
  | .literal => context |>.scanFrom used origin buffer (start + 1) (builder.addText ['@'])
  | .expression fragment finish => do
    let run ← context |>.scanFrom used origin buffer finish (builder.addExpression fragment)
    some (run.after [] [.expression fragment start])
  | .inclusion named finish => do
    let read ← context.readInclude used named
    match read.result with
    | .error error => some ⟨read.inclusions, read.events, .error error⟩
    | .ok content =>
      let spliced ← splice? origin start finish (byteLength content)
      let remainder ← slice? buffer finish (byteLength buffer)
      let run ← context |>.scanFrom (used + read.inclusions.length) spliced (content ++ remainder) 0 builder
      some (run.after read.inclusions read.events)
partial_fixpoint

/-- Classifies the `@` at offset `start`. -/
def Context.classify (context : Context) (used : Nat) (text : Text) (start : Nat) :
    Option (Run Step) := do
  let rest ← slice? text (start + 1) (byteLength text)
  match rest with
  | [] => some (.done .literal)
  | c :: _ =>
    if c = '@' then some (.done .escaped)
    else if c = '{' then context |>.classifyDelimited used text start (start + 1)
    else if isNameStart c then context |>.classifyGreedy used text (start + 1)
    else some (.done .literal)
partial_fixpoint

/-- Classifies an `@` by the braces after it. -/
def Context.classifyDelimited (context : Context) (used : Nat) (text : Text) (start opening : Nat) :
    Option (Run Step) := do
  match ← findMatching text opening .brace with
  | none => some (.fail (.unterminated .brace start))
  | some close =>
    let raw ← slice? text (opening + 1) close
    let lead ← minus? (byteLength raw) (byteLength (trimStart raw))
    match delimitedPath? (trim raw) with
    | some named => some (.done (.inclusion named (close + 1)))
    | none =>
      let parsed ← context |>.parseExpression used (trim raw) 0 .delimited (opening + 1 + lead)
      some (parsed.map (Step.ofBody (trim raw) (close + 1)))
partial_fixpoint

/-- Classifies an `@` by the name after it. -/
def Context.classifyGreedy (context : Context) (used : Nat) (text : Text) (start : Nat) :
    Option (Run Step) := do
  match ← greedyPath text start with
  | some (named, finish) => some (.done (.inclusion named finish))
  | none =>
    let parsed ← context |>.parseExpression used text start .greedy 0
    some (parsed.map Step.ofGreedy)
partial_fixpoint

/-- Parses the expression that starts at an offset. Offsets of errors are shifted by `base`. -/
def Context.parseExpression (context : Context) (used : Nat) (text : Text) (start : Nat)
    (mode : Mode) (base : Nat) : Option (Run (Option (Fragment × Nat))) :=
  let finish := nameEnd text start
  if finish = start then some (.done none)
  else do
    let name ← slice? text start finish
    if hasByte text finish '[' then
      let parsed ← context |>.parseLookup used text name finish base
      some (parsed.map some)
    else if hasByte text finish '.' then
      let parsed ← parseAttribute text name finish mode
      some (.done (some parsed))
    else some (.done (some (.reference name, finish)))
partial_fixpoint

/-- Parses the lookup of a name whose bracket stands at `opening`. -/
def Context.parseLookup (context : Context) (used : Nat) (text name : Text) (opening base : Nat) :
    Option (Run (Fragment × Nat)) := do
  match ← findMatching text opening .bracket with
  | none => some (.fail (.unterminated .bracket (base + opening)))
  | some close =>
    let interior ← slice? text (opening + 1) close
    let keys ← splitKeys interior
    if keys.any (·.text.isEmpty) then some (.done (.reference name, opening))
    else
      let parsed ← context |>.parseKeys used (base + opening + 1) keys
      match parsed.result with
      | .error error => some ⟨parsed.inclusions, parsed.events, .error error⟩
      | .ok found =>
        let lookup ← assembleLookup name opening close found
        some ⟨parsed.inclusions, parsed.events, .ok lookup⟩
partial_fixpoint

/-- Parses keys one after the other. A key that starts with `@` is scanned. -/
def Context.parseKeys (context : Context) (used base : Nat) (keys : List Key) :
    Option (Run (List Fragment)) :=
  match keys with
  | [] => some (.done [])
  | key :: more =>
    if key.text.head? = some '@' then do
      let scanned ← context |>.scanFrom used (.start (base + key.offset)) key.text 0 .empty
      match scanned.result with
      | .error error => some ⟨scanned.inclusions, scanned.events, .error error⟩
      | .ok part =>
        let later ← context |>.parseKeys (used + scanned.inclusions.length) base more
        some ((later.map (part :: ·)).after scanned.inclusions scanned.events)
    else do
      let later ← context |>.parseKeys used base more
      some (later.map (.literal key.text :: ·))
partial_fixpoint

end

/-- Interpolates a text, with every step checked. -/
def interpolate (files : Files) (options : Options) (text : Text) : Option (Run Fragment) :=
  Context.scanFrom ⟨files, options⟩ 0 (.start 0) text 0 .empty

theorem offset?_eq (origin : Origin) (position : Nat) : offset? origin position = some (origin.offset position) := by
  unfold offset? Origin.offset
  split
  · rfl
  · next beyond =>
    rw [minus?_of_le (by omega)]
    rfl

theorem splice?_eq (origin : Origin) (start finish contentLength : Nat) :
    splice? origin start finish contentLength = some (origin.splice start finish contentLength) := by
  unfold splice? Origin.splice
  split
  · next within =>
    rw [minus?_of_le within]
    rfl
  · rw [offset?_eq, offset?_eq]
    rfl

theorem relocate?_eq (origin : Origin) (error : Error) :
    relocate? origin error = some (origin.relocate error) := by
  cases error with
  | unterminated delimiter position =>
    rw [relocate?, offset?_eq]
    rfl
  | _ => rfl

theorem hasByte_iff {front rest : Text} {sign : Char} (narrow : sign.toNat < 128) :
    hasByte (front ++ rest) (byteLength front) sign = true ↔ ∃ tail, rest = sign :: tail := by
  rw [hasByte, beq_iff_eq]
  constructor
  · intro found
    obtain ⟨b, present, rfl⟩ := Option.map_eq_some_iff.mp found
    rw [← List.head?_drop, drop_bytes] at present
    obtain ⟨more, spelled⟩ := List.head?_eq_some_iff.mp present
    obtain ⟨tail, same, -⟩ := bytes_eq_cons spelled narrow
    exact ⟨tail, same⟩
  · rintro ⟨tail, rfl⟩
    obtain ⟨b, single, same, -⟩ := utf8EncodeChar_narrow narrow
    rw [getElem?_bytes, single]
    simp [same]

theorem assembleLookup_eq (name : Text) (opening close : Nat) {keys : List Fragment} (full : keys ≠ []) :
    assembleLookup name opening close keys = some (.ofKeys name keys, close + 1) := by
  match keys with
  | [] => exact absurd rfl full
  | [key] => rfl
  | first :: second :: more => rfl

end StackTemplate.Checked
