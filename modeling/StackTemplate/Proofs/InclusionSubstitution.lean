import StackTemplate.Proofs.BalancedText
import StackTemplate.Proofs.DirectiveLookahead
import StackTemplate.Proofs.ScanSimulation

/-! Including a file is putting its content in the place of the directive and
reading on. A text with a directive denotes what the text with the content in its
place denotes when one inclusion fewer is allowed. -/
namespace StackTemplate

namespace Directive

/-- Spellings of an inclusion in front of `rest`. A delimited path may hold blanks
and balanced braces; an undelimited one reaches up to a blank or the end. -/
inductive Includes (path : Text) : (directive rest : Text) → Prop where
  | delimited {lead gap trail : Text} (leadBlank : ∀ c ∈ lead, Text.isBlank c = true)
      (gapBlank : ∀ c ∈ gap, Text.isBlank c = true)
      (trailBlank : ∀ c ∈ trail, Text.isBlank c = true) (full : path ≠ [])
      (tight : Text.Tight path) (balanced : Balanced .brace path) (rest : Text) :
      Includes path ('@' :: '{' :: (lead ++ scheme ++ gap ++ path ++ trail ++ ['}'])) rest
  | greedy {rest : Text} (full : path ≠ []) (solid : ∀ c ∈ path, Text.isBlank c = false)
      (ends : StartsBlank rest) : Includes path ('@' :: (scheme ++ path)) rest

private theorem read_delimited {path lead gap trail : Text}
    (leadBlank : ∀ c ∈ lead, Text.isBlank c = true) (gapBlank : ∀ c ∈ gap, Text.isBlank c = true)
    (trailBlank : ∀ c ∈ trail, Text.isBlank c = true) (full : path ≠ []) (tight : Text.Tight path)
    (balanced : Balanced .brace path) (rest : Text) :
    read ('{' :: (lead ++ scheme ++ gap ++ path ++ trail ++ ['}']) ++ rest) =
      ⟨.inclusion path, '{' :: (lead ++ scheme ++ gap ++ path ++ trail) ++ ['}'], rest⟩ := by
  have raw : Balanced .brace (lead ++ scheme ++ gap ++ path ++ trail) := by
    have blanks {text : Text} (blank : ∀ c ∈ text, Text.isBlank c = true) : Balanced .brace text :=
      (Nested.of_blank blank).balanced .brace
    have schemed : Balanced .brace scheme := by decide
    exact ((((blanks leadBlank).append schemed).append (blanks gapBlank)).append balanced).append
      (blanks trailBlank)
  have body : Text.trim (lead ++ scheme ++ gap ++ path ++ trail) = scheme ++ gap ++ path := by
    have outer : Text.Tight (scheme ++ gap ++ path) :=
      Text.tight_append gap (by simp [scheme]) full (by simp [scheme, Text.isBlank]) tight.2
    simpa using Text.trim_padded leadBlank outer trailBlank
  have named : delimitedPath? (scheme ++ gap ++ path) = some path := by
    have inner : Text.trim (gap ++ path) = path := by
      simpa using @Text.trim_padded gap path [] gapBlank tight (by simp)
    rw [delimitedPath?, List.append_assoc, after?_append]
    simp [inner, full]
  have closed := enclosed_balanced raw rest
  simp only [List.cons_append, List.append_assoc, List.nil_append, Delimiter.closer] at closed body named ⊢
  simp [read, readDelimited, closed, body, named]

private theorem read_greedy {path rest : Text} (full : path ≠ [])
    (solid : ∀ c ∈ path, Text.isBlank c = false) (ends : StartsBlank rest) :
    read (scheme ++ path ++ rest) = ⟨.inclusion path, scheme ++ path, rest⟩ := by
  have named : greedyPath? (scheme ++ path) = some path := by
    have itself : path.takeWhile (fun c => !Text.isBlank c) = path := by
      calc path.takeWhile (fun c => !Text.isBlank c)
          = (path ++ []).takeWhile (fun c => !Text.isBlank c) := by rw [List.append_nil]
        _ = path ++ [].takeWhile (fun c => !Text.isBlank c) :=
          List.takeWhile_append_of_pos fun c member => by simp [solid c member]
        _ = path := by simp
    rw [greedyPath?, after?_append]
    simp [itself, full]
  have grown := greedyPath?_extend_some named ends
  have start : isNameStart 'f' = true := by decide
  simp only [scheme, List.cons_append, List.nil_append] at grown ⊢
  simp [read, readGreedy, grown, start, scheme]

/-- Every spelling of an inclusion is read as one. -/
theorem Includes.read {path directive rest : Text} (includes : Includes path directive rest) :
    ∃ text extent, directive ++ rest = '@' :: text ∧
      Directive.read text = ⟨.inclusion path, extent, rest⟩ := by
  cases includes with
  | delimited leadBlank gapBlank trailBlank full tight balanced _ =>
    exact ⟨_, _, rfl, read_delimited leadBlank gapBlank trailBlank full tight balanced rest⟩
  | greedy full solid ends => exact ⟨_, _, rfl, read_greedy full solid ends⟩

end Directive

namespace Interpolation

/-- Text without an `@` is listed as it stands. -/
theorem scan_plain_append {files : Files} {options : Options} {used position : Nat} {origin : Origin}
    {before : Text} (plain : '@' ∉ before) (text : Text) :
    scan files options used origin position (before ++ text) =
      (scan files options used origin (position + Text.byteLength before) text).map
        (before.map (fun c => .literal [c]) ++ ·) := by
  induction before generalizing position with
  | nil => simp
  | cons c before ih =>
    have different : c ≠ '@' := fun same => plain (by simp [same])
    have later : '@' ∉ before := fun member => plain (List.mem_cons_of_mem _ member)
    rw [List.cons_append, scan_text different, ih later, Run.map_map, Text.byteLength_cons,
      Nat.add_assoc]
    rfl

end Interpolation

open Interpolation Directive in
/-- Inclusion is substitution. A directive and the content of its file in its
place denote the same or fail alike, the directive taking one of the allowed
inclusions. Errors may differ in the offset and the limit they tell. -/
theorem interpolate_inclusion (files : Files) (options : Options) {before directive rest path content : Text}
    (allowed : 1 ≤ options.includeLimit) (plain : '@' ∉ before)
    (includes : Includes path directive rest) (readable : files (options.locate path) = .ok content) :
    let fewer : Options := { options with includeLimit := options.includeLimit - 1 }
    let included := (interpolate files options (before ++ directive ++ rest)).result
    let substituted := (interpolate files fewer (before ++ content ++ rest)).result
    (∀ value, included = .ok value ↔ substituted = .ok value) ∧
    (∀ error, included = .error error → ∃ other, substituted = .error other ∧
      error.Matches (fun _ _ => True) options.includeLimit fewer.includeLimit other) ∧
    ∀ other, substituted = .error other → ∃ error, included = .error error ∧
      error.Matches (fun _ _ => True) options.includeLimit fewer.includeLimit other := by
  intro fewer included substituted
  obtain ⟨text, extent, whole, reading⟩ := includes.read
  let origin := (Origin.start 0).splice (0 + Text.byteLength before)
    (0 + Text.byteLength before + 1 + Text.byteLength extent) (Text.byteLength content)
  let lead : List Fragment := before.map (fun c => .literal [c])
  have includedRan : included =
      ((scan files options (0 + 1) origin 0 (content ++ rest)).result.map (lead ++ ·)).map .collapse := by
    change (interpolate files options (before ++ directive ++ rest)).result = _
    rw [interpolate_eq_map_collapse, List.append_assoc, whole, scan_plain_append plain,
      scan_inclusion reading, if_pos (show 0 < options.includeLimit from allowed), readable]
    rfl
  have substitutedRan : substituted =
      ((scan files fewer 0 (.start 0) (0 + Text.byteLength before) (content ++ rest)).result.map
        (lead ++ ·)).map .collapse := by
    change (interpolate files fewer (before ++ content ++ rest)).result = _
    rw [interpolate_eq_map_collapse, List.append_assoc, scan_plain_append plain]
    rfl
  have matched := (@scan_matches files options fewer rfl).1 (0 + 1) origin 0 (content ++ rest)
    0 (.start 0) (0 + Text.byteLength before) (fun _ _ => True) (by simp [fewer]) (fun _ => trivial)
  rw [includedRan, substitutedRan]
  generalize scan files options (0 + 1) origin 0 (content ++ rest) = run at matched ⊢
  generalize scan files fewer 0 (.start 0) (0 + Text.byteLength before) (content ++ rest) = run'
    at matched ⊢
  cases matched with
  | ended inclusions told told' parts =>
    exact ⟨fun value => Iff.rfl, fun error failed => (by cases failed), fun other failed => (by cases failed)⟩
  | @failed error error' inclusions told told' errors =>
    refine ⟨fun value => ⟨fun same => (by cases same), fun same => (by cases same)⟩, ?_, ?_⟩
    · intro failure failed
      cases failed
      exact ⟨error', rfl, errors⟩
    · intro failure failed
      cases failed
      exact ⟨error, rfl, errors⟩

open Interpolation Directive in
/-- The content of a file grows together with the text after the directive. -/
theorem interpolate_inclusion_completes_name :
    let files : Files := fun path => if path = ['f'] then .ok ['@', 'A'] else .error .notFound
    let directive := '@' :: '{' :: ([' '] ++ scheme ++ [' '] ++ ['f'] ++ [' '] ++ ['}'])
    (interpolate files { includeLimit := 1 } (['x'] ++ directive ++ [':', ':', 'B', '.'])).result =
      .ok (.join [.literal ['x'], .reference ['A', ':', ':', 'B'], .literal ['.']]) := by
  intro files directive
  have blank : ∀ c ∈ [' '], Text.isBlank c = true := by simp [Text.isBlank]
  have includes : Includes ['f'] directive [':', ':', 'B', '.'] :=
    .delimited blank blank blank (by simp) (by decide) (by decide) _
  exact ((@interpolate_inclusion files { includeLimit := 1 } ['x'] directive [':', ':', 'B', '.']
    ['f'] ['@', 'A'] (by decide) (by decide) includes rfl).1 _).mpr (by cbv)

end StackTemplate
