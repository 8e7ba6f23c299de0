import StackTemplate.Directive
import StackTemplate.Origin
import StackTemplate.Run

/-! Interpolation turns template text into a fragment. `scan` walks the text and
acts on each directive; an inclusion puts the content of a file in the place of
the directive and scans on from there. Each scan ends because either an
inclusion is used up or the text gets shorter. -/
namespace StackTemplate

namespace Interpolation

/-- How text is interpolated. -/
structure Options where
  /-- The directory that relative paths of inclusions start from. -/
  baseDir : Option Text := none
  /-- How many files one text may include. -/
  includeLimit : Nat := 64
  deriving DecidableEq, Repr, Inhabited

/-- The path that an inclusion reads. -/
def Options.locate (options : Options) (path : Text) : Text :=
  match options.baseDir with
  | some base => Path.join base path
  | none => path

/-- What a scan calls has fewer inclusions left, or as many and less to scan. -/
theorem spent_or_shorter {limit used later small large : Nat} (kept : used ≤ later)
    (shorter : small < large) :
    Prod.Lex (fun a b => a < b) (fun a b => a < b) (limit - later, small) (limit - used, large) := by
  by_cases same : limit - later = limit - used
  · exact same ▸ .right _ shorter
  · exact .left _ _ (by omega)

theorem rest_shorter {text extent rest : Text} {directive : Directive} {c : Char}
    (reading : Directive.read text = ⟨directive, extent, rest⟩) :
    rest.length < (c :: text).length := by
  have shorter := Directive.length_rest_le text
  rw [reading] at shorter
  exact Nat.lt_succ_of_le shorter

theorem keys_shorter {text extent rest : Text} {directive : Directive} {shape : Shape}
    {c : Char} (reading : Directive.read text = ⟨directive, extent, rest⟩)
    (member : directive.shape? = some shape) :
    Directive.room shape.keys < (c :: text).length :=
  Nat.lt_succ_of_le (Directive.room_keys_le (by rw [reading]; exact member))

mutual

/-- Scans text that starts at byte `position` of a buffer with the given origin,
after `used` inclusions. The result lists what the text denotes in order. -/
def scan (files : Files) (options : Options) (used : Nat) (origin : Origin) (position : Nat)
    (text : Text) : Run (List Fragment) :=
  match text with
  | [] => .done []
  | c :: text =>
    if c ≠ '@' then
      (scan files options used origin (position + c.utf8Size) text).map (.literal [c] :: ·)
    else
      match reading : Directive.read text with
      | ⟨.escape, extent, rest⟩ =>
        (scan files options used origin (position + 1 + Text.byteLength extent) rest).map
          (.literal ['@'] :: ·)
      | ⟨.plain, extent, rest⟩ =>
        (scan files options used origin (position + 1 + Text.byteLength extent) rest).map
          (.literal ['@'] :: ·)
      | ⟨.unclosed delimiter offset, _, _⟩ =>
        .fail (.unterminated delimiter (origin.offset (position + offset)))
      | ⟨.inclusion named, extent, rest⟩ =>
        if _ : used < options.includeLimit then
          let path := options.locate named
          match files path with
          | .error fault => (Run.fail (.unreadableInclusion path fault)).after [⟨named, path⟩] []
          | .ok content =>
            let size := Text.byteLength content
            let spliced := origin.splice position (position + 1 + Text.byteLength extent) size
            (scan files options (used + 1) spliced 0 (content ++ rest)).after
              [⟨named, path⟩] [.included path size (used + 1)]
        else .fail (.tooManyInclusions options.includeLimit)
      | ⟨.expression lead shape, extent, rest⟩ =>
        match scanKeys files options used (position + lead + shape.keysOffset) shape.keys with
        | ⟨inclusions, events, .error error⟩ => ⟨inclusions, events, .error (origin.relocate error)⟩
        | ⟨inclusions, events, .ok keys⟩ =>
          ((scan files options (used + inclusions.length) origin
              (position + 1 + Text.byteLength extent) rest).map (shape.build keys :: ·)).after
            inclusions (events ++ [.expression (shape.build keys) position])
      | ⟨.rejected lead shape, extent, rest⟩ =>
        match scanKeys files options used (position + lead + shape.keysOffset) shape.keys with
        | ⟨inclusions, events, .error error⟩ => ⟨inclusions, events, .error (origin.relocate error)⟩
        | ⟨inclusions, events, .ok _⟩ =>
          ((scan files options (used + inclusions.length) origin
              (position + 1 + Text.byteLength extent) rest).map (.literal ['@'] :: ·)).after
            inclusions events
termination_by (options.includeLimit - used, text.length)
decreasing_by
  · exact spent_or_shorter (Nat.le_refl _) (Nat.lt_succ_self _)
  · exact spent_or_shorter (Nat.le_refl _) (rest_shorter reading)
  · exact spent_or_shorter (Nat.le_refl _) (rest_shorter reading)
  · exact .left _ _ (by omega)
  · exact spent_or_shorter (Nat.le_refl _) (keys_shorter reading rfl)
  · exact spent_or_shorter (Nat.le_add_right _ _) (rest_shorter reading)
  · exact spent_or_shorter (Nat.le_refl _) (keys_shorter reading rfl)
  · exact spent_or_shorter (Nat.le_add_right _ _) (rest_shorter reading)

/-- Scans keys whose offsets count from byte `base` of the buffer around them. A
key that does not start with `@` is taken as it is. -/
def scanKeys (files : Files) (options : Options) (used base : Nat) (keys : List Directive.Key) :
    Run (List Fragment) :=
  match keys with
  | [] => .done []
  | key :: more =>
    if key.text.head? = some '@' then
      match scan files options used (.start (base + key.offset)) 0 key.text with
      | ⟨inclusions, events, .error error⟩ => ⟨inclusions, events, .error error⟩
      | ⟨inclusions, events, .ok parts⟩ =>
        ((scanKeys files options (used + inclusions.length) base more).map
          (Assembly.ofFragments parts :: ·)).after inclusions events
    else (scanKeys files options used base more).map (.literal key.text :: ·)
termination_by (options.includeLimit - used, Directive.room keys)
decreasing_by
  · exact spent_or_shorter (Nat.le_refl _) (by simp [Directive.room]; omega)
  · exact spent_or_shorter (Nat.le_add_right _ _) (by simp [Directive.room])
  · exact spent_or_shorter (Nat.le_refl _) (by simp [Directive.room])

end

end Interpolation

open Interpolation in
/-- The fragment that a text denotes. -/
def interpolate (files : Files) (options : Options) (text : Text) : Run Fragment :=
  (scan files options 0 (.start 0) 0 text).map Assembly.ofFragments

/-- Interpolates a text, then the source text of what it denotes, and so on for
a number of rounds. A failure is the last round. -/
def interpolateRounds (files : Files) (options : Interpolation.Options) :
    Nat → Text → List (Run Fragment)
  | 0, _ => []
  | rounds + 1, text =>
    let run := interpolate files options text
    match run.result with
    | .ok fragment => run :: interpolateRounds files options rounds fragment.display
    | .error _ => [run]

end StackTemplate
