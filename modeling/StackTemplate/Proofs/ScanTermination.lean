import Mathlib
import StackTemplate.Proofs.ScanSteps

/-! Scanning ends, whatever the files hold. `Ends` gives the rules by which the
scan of a text or of keys goes, one count of inclusions passing through all of
them; a derivation is a scan that came to its end. Files may ask for each other
without end, but every call a scan makes has fewer inclusions left, or as many and
less text, so each call has a derivation, and its count stays within the limit. -/
namespace StackTemplate

/-- The run ended in `outcome`, and its inclusions raise the count from `used` to `count`. -/
def Run.EndsWith (used count : Nat) (outcome : Except Error α) (run : Run α) : Prop :=
  run.result = outcome ∧ used + run.inclusions.length = count

namespace Run.EndsWith

variable {used count : Nat} {outcome : Except Error α} {run : Run α}

theorem map (ends : run.EndsWith used count outcome) (f : α → β) :
    (run.map f).EndsWith used count (outcome.map f) := by
  obtain ⟨rfl, counted⟩ := ends
  exact ⟨rfl, counted⟩

theorem after {inclusions : List Inclusion} {events : List Event}
    (ends : run.EndsWith (used + inclusions.length) count outcome) :
    (run.after inclusions events).EndsWith used count outcome := by
  refine ⟨ends.1, ?_⟩
  rw [inclusions_after, List.length_append, ← Nat.add_assoc]
  exact ends.2

end Run.EndsWith

namespace Interpolation
open Directive (Key)

/-- A scan about to begin, with `used` inclusions counted before it. -/
inductive Call where
  /-- The scan of a text from byte `position` of a buffer on. -/
  | text (used : Nat) (origin : Origin) (position : Nat) (text : Text)
  /-- The scan of keys whose offsets count from byte `base`. -/
  | keys (used base : Nat) (keys : List Key)

namespace Call

/-- The inclusions counted before the call. -/
def used : Call → Nat
  | text used _ _ _ => used
  | keys used _ _ => used

/-- How much the call has to scan. -/
def size : Call → Nat
  | text _ _ _ remaining => remaining.length
  | keys _ _ remaining => Directive.room remaining

/-- The run that the call makes. -/
def run (files : Files) (options : Options) : Call → Run (List Fragment)
  | text used origin position remaining => scan files options used origin position remaining
  | keys used base remaining => scanKeys files options used base remaining

end Call

/-- How a call ends: the inclusions counted by then, and what came of it. An
inclusion is counted when its file is asked for. -/
inductive Ends (files : Files) (options : Options) :
    Call → Nat → Except Error (List Fragment) → Prop where
  | nil {used position : Nat} {origin : Origin} :
      Ends files options (.text used origin position []) used (.ok [])
  | text {used position count : Nat} {origin : Origin} {c : Char} {text : Text}
      {outcome : Except Error (List Fragment)} (plain : c ≠ '@')
      (later : Ends files options (.text used origin (position + c.utf8Size) text) count outcome) :
      Ends files options (.text used origin position (c :: text)) count
        (outcome.map (.literal [c] :: ·))
  | unclosed {used position offset : Nat} {origin : Origin} {text extent rest : Text}
      {delimiter : Delimiter}
      (reading : Directive.read text = ⟨.unclosed delimiter offset, extent, rest⟩) :
      Ends files options (.text used origin position ('@' :: text)) used
        (.error (.unterminated delimiter (origin.offset (position + offset))))
  | refused {used position : Nat} {origin : Origin} {text named extent rest : Text}
      (reading : Directive.read text = ⟨.inclusion named, extent, rest⟩)
      (full : options.includeLimit ≤ used) :
      Ends files options (.text used origin position ('@' :: text)) used
        (.error (.tooManyInclusions options.includeLimit))
  | unreadable {used position : Nat} {origin : Origin} {text named extent rest : Text} {fault : Fault}
      (reading : Directive.read text = ⟨.inclusion named, extent, rest⟩)
      (room : used < options.includeLimit) (missing : files (options.locate named) = .error fault) :
      Ends files options (.text used origin position ('@' :: text)) (used + 1)
        (.error (.unreadableInclusion (options.locate named) fault))
  | included {used position count : Nat} {origin : Origin} {text named extent rest content : Text}
      {outcome : Except Error (List Fragment)}
      (reading : Directive.read text = ⟨.inclusion named, extent, rest⟩)
      (room : used < options.includeLimit) (held : files (options.locate named) = .ok content)
      (later : Ends files options (.text (used + 1)
        (origin.splice position (position + 1 + Text.byteLength extent) (Text.byteLength content))
        0 (content ++ rest)) count outcome) :
      Ends files options (.text used origin position ('@' :: text)) count outcome
  | halted {used position count : Nat} {origin : Origin} {text extent rest : Text}
      {directive : Directive} {build : List Fragment → Fragment} {error : Error}
      (reading : Directive.read text = ⟨directive, extent, rest⟩)
      (yields : directive.yield? = some build)
      (inside : Ends files options (.keys used (position + directive.keysStart) directive.keys)
        count (.error error)) :
      Ends files options (.text used origin position ('@' :: text)) count
        (.error (origin.relocate error))
  | yields {used position middle count : Nat} {origin : Origin} {text extent rest : Text}
      {directive : Directive} {build : List Fragment → Fragment} {found : List Fragment}
      {outcome : Except Error (List Fragment)}
      (reading : Directive.read text = ⟨directive, extent, rest⟩)
      (yields : directive.yield? = some build)
      (inside : Ends files options (.keys used (position + directive.keysStart) directive.keys)
        middle (.ok found))
      (later : Ends files options (.text middle origin (position + 1 + Text.byteLength extent) rest)
        count outcome) :
      Ends files options (.text used origin position ('@' :: text)) count
        (outcome.map (build found :: ·))
  | noKeys {used base : Nat} : Ends files options (.keys used base []) used (.ok [])
  | literalKey {used base count : Nat} {key : Key} {more : List Key}
      {outcome : Except Error (List Fragment)} (verbatim : key.text.head? ≠ some '@')
      (later : Ends files options (.keys used base more) count outcome) :
      Ends files options (.keys used base (key :: more)) count
        (outcome.map (.literal key.text :: ·))
  | keyHalted {used base count : Nat} {key : Key} {more : List Key} {error : Error}
      (isAt : key.text.head? = some '@')
      (inside : Ends files options (.text used (.start (base + key.offset)) 0 key.text) count
        (.error error)) :
      Ends files options (.keys used base (key :: more)) count (.error error)
  | scannedKey {used base middle count : Nat} {key : Key} {more : List Key} {parts : List Fragment}
      {outcome : Except Error (List Fragment)} (isAt : key.text.head? = some '@')
      (inside : Ends files options (.text used (.start (base + key.offset)) 0 key.text) middle
        (.ok parts))
      (later : Ends files options (.keys middle base more) count outcome) :
      Ends files options (.keys used base (key :: more)) count
        (outcome.map (.collapse parts :: ·))

/-- The calls that a call makes on its way, each with the count it begins with:
`Calls files options callee caller`. -/
inductive Calls (files : Files) (options : Options) : Call → Call → Prop where
  | text {used position : Nat} {origin : Origin} {c : Char} {text : Text} (plain : c ≠ '@') :
      Calls files options (.text used origin (position + c.utf8Size) text)
        (.text used origin position (c :: text))
  | included {used position : Nat} {origin : Origin} {text named extent rest content : Text}
      (reading : Directive.read text = ⟨.inclusion named, extent, rest⟩)
      (room : used < options.includeLimit) (held : files (options.locate named) = .ok content) :
      Calls files options (.text (used + 1)
          (origin.splice position (position + 1 + Text.byteLength extent) (Text.byteLength content))
          0 (content ++ rest))
        (.text used origin position ('@' :: text))
  | keys {used position : Nat} {origin : Origin} {text extent rest : Text} {directive : Directive}
      {build : List Fragment → Fragment}
      (reading : Directive.read text = ⟨directive, extent, rest⟩)
      (yields : directive.yield? = some build) :
      Calls files options (.keys used (position + directive.keysStart) directive.keys)
        (.text used origin position ('@' :: text))
  | rest {used position middle : Nat} {origin : Origin} {text extent rest : Text}
      {directive : Directive} {build : List Fragment → Fragment} {found : List Fragment}
      (reading : Directive.read text = ⟨directive, extent, rest⟩)
      (yields : directive.yield? = some build)
      (inside : Ends files options (.keys used (position + directive.keysStart) directive.keys)
        middle (.ok found)) :
      Calls files options (.text middle origin (position + 1 + Text.byteLength extent) rest)
        (.text used origin position ('@' :: text))
  | pastLiteral {used base : Nat} {key : Key} {more : List Key} (verbatim : key.text.head? ≠ some '@') :
      Calls files options (.keys used base more) (.keys used base (key :: more))
  | key {used base : Nat} {key : Key} {more : List Key} (isAt : key.text.head? = some '@') :
      Calls files options (.text used (.start (base + key.offset)) 0 key.text)
        (.keys used base (key :: more))
  | pastKey {used base middle : Nat} {key : Key} {more : List Key} {parts : List Fragment}
      (isAt : key.text.head? = some '@')
      (inside : Ends files options (.text used (.start (base + key.offset)) 0 key.text) middle
        (.ok parts)) :
      Calls files options (.keys middle base more) (.keys used base (key :: more))

variable {files : Files} {options : Options}

/-- The count never falls, and only passes the limit if it was there before. -/
theorem Ends.count_within {call : Call} {count : Nat} {outcome : Except Error (List Fragment)}
    (ends : Ends files options call count outcome) :
    call.used ≤ count ∧ count ≤ max call.used options.includeLimit := by
  induction ends with
  | nil => simp [Call.used]
  | text plain later ih => exact ih
  | unclosed reading => simp [Call.used]
  | refused reading full => simp [Call.used]
  | unreadable reading room missing =>
    simp only [Call.used]
    omega
  | included reading room held later ih =>
    simp only [Call.used] at ih ⊢
    omega
  | halted reading yields inside ih => exact ih
  | yields reading yields inside later insideIh laterIh =>
    simp only [Call.used] at insideIh laterIh ⊢
    omega
  | noKeys => simp [Call.used]
  | literalKey verbatim later ih => exact ih
  | keyHalted isAt inside ih => exact ih
  | scannedKey isAt inside later insideIh laterIh =>
    simp only [Call.used] at insideIh laterIh ⊢
    omega

private theorem room_keys_lt {text extent rest : Text} {directive : Directive}
    (reading : Directive.read text = ⟨directive, extent, rest⟩) :
    Directive.room directive.keys < ('@' :: text).length := by
  cases directive with
  | expression lead shape => exact keys_shorter reading rfl
  | rejected lead shape => exact keys_shorter reading rfl
  | escape => exact Nat.succ_pos _
  | plain => exact Nat.succ_pos _
  | inclusion named => exact Nat.succ_pos _
  | unclosed delimiter offset => exact Nat.succ_pos _

/-- Every call has fewer inclusions left than its caller, or as many and less to scan. -/
theorem Calls.measure_lt {callee caller : Call} (calls : Calls files options callee caller) :
    Prod.Lex (· < ·) (· < ·) (options.includeLimit - callee.used, callee.size)
      (options.includeLimit - caller.used, caller.size) := by
  cases calls with
  | text plain => exact spent_or_shorter (Nat.le_refl _) (Nat.lt_succ_self _)
  | included reading room held =>
    apply Prod.Lex.left
    simp only [Call.used]
    omega
  | keys reading yields =>
    exact spent_or_shorter (Nat.le_refl _) (room_keys_lt reading)
  | rest reading yields inside =>
    exact spent_or_shorter inside.count_within.1 (@rest_shorter _ _ _ _ '@' reading)
  | pastLiteral verbatim =>
    exact spent_or_shorter (Nat.le_refl _) (by simp [Call.size, Directive.room])
  | key isAt =>
    refine spent_or_shorter (Nat.le_refl _) ?_
    simp only [Call.size, Directive.room]
    omega
  | pastKey isAt inside =>
    exact spent_or_shorter inside.count_within.1 (by simp [Call.size, Directive.room])

/-- The recursion from texts to keys and back is well founded. -/
theorem calls_wellFounded (files : Files) (options : Options) : WellFounded (Calls files options) :=
  Subrelation.wf Calls.measure_lt
    (InvImage.wf (fun call : Call => (options.includeLimit - call.used, call.size))
      (Prod.lex Nat.lt_wfRel Nat.lt_wfRel).wf)

/-- A call ends once the calls it makes end. -/
theorem exists_ends_of_calls {caller : Call}
    (callees : ∀ callee, Calls files options callee caller →
      ∃ count outcome, Ends files options callee count outcome) :
    ∃ count outcome, Ends files options caller count outcome := by
  cases caller with
  | text used origin position text =>
    cases text with
    | nil => exact ⟨_, _, .nil⟩
    | cons c text =>
      by_cases isAt : c = '@'
      · subst isAt
        rcases reading : Directive.read text with ⟨directive, extent, rest⟩
        cases yields : directive.yield? with
        | some build =>
          obtain ⟨middle, found, inside⟩ := callees _ (.keys reading yields)
          cases found with
          | error error => exact ⟨_, _, .halted reading yields inside⟩
          | ok found =>
            obtain ⟨count, outcome, later⟩ := callees _ (.rest reading yields inside)
            exact ⟨_, _, .yields reading yields inside later⟩
        | none =>
          cases directive with
          | unclosed delimiter offset => exact ⟨_, _, .unclosed reading⟩
          | inclusion named =>
            by_cases room : used < options.includeLimit
            · cases held : files (options.locate named) with
              | error fault => exact ⟨_, _, .unreadable reading room held⟩
              | ok content =>
                obtain ⟨count, outcome, later⟩ := callees _ (.included reading room held)
                exact ⟨_, _, .included reading room held later⟩
            · exact ⟨_, _, .refused reading (Nat.not_lt.mp room)⟩
          | escape => cases yields
          | plain => cases yields
          | expression lead shape => cases yields
          | rejected lead shape => cases yields
      · obtain ⟨count, outcome, later⟩ := callees _ (.text isAt)
        exact ⟨_, _, .text isAt later⟩
  | keys used base keys =>
    cases keys with
    | nil => exact ⟨_, _, .noKeys⟩
    | cons key more =>
      by_cases isAt : key.text.head? = some '@'
      · obtain ⟨middle, parts, inside⟩ := callees _ (.key isAt)
        cases parts with
        | error error => exact ⟨_, _, .keyHalted isAt inside⟩
        | ok parts =>
          obtain ⟨count, outcome, later⟩ := callees _ (.pastKey isAt inside)
          exact ⟨_, _, .scannedKey isAt inside later⟩
      · obtain ⟨count, outcome, later⟩ := callees _ (.pastLiteral isAt)
        exact ⟨_, _, .literalKey isAt later⟩

/-- Every call ends. -/
theorem exists_ends (call : Call) : ∃ count outcome, Ends files options call count outcome :=
  (calls_wellFounded files options).induction call fun _ => exists_ends_of_calls

/-- A derivation tells how the run of its call went. -/
theorem Ends.run_endsWith {call : Call} {count : Nat} {outcome : Except Error (List Fragment)}
    (ends : Ends files options call count outcome) :
    (call.run files options).EndsWith call.used count outcome := by
  induction ends with
  | nil =>
    rw [Call.run, scan_nil]
    exact ⟨rfl, rfl⟩
  | text plain later ih =>
    rw [Call.run, scan_text plain]
    exact ih.map _
  | unclosed reading =>
    rw [Call.run, scan_unclosed reading]
    exact ⟨rfl, rfl⟩
  | refused reading full =>
    rw [Call.run, scan_inclusion reading, if_neg (Nat.not_lt.mpr full)]
    exact ⟨rfl, rfl⟩
  | unreadable reading room missing =>
    rw [Call.run, scan_inclusion reading, if_pos room, missing]
    exact ⟨rfl, rfl⟩
  | included reading room held later ih =>
    rw [Call.run, scan_inclusion reading, if_pos room, held]
    exact ih.after
  | @halted used position _ _ _ _ _ directive _ _ reading yields inside ih =>
    simp only [Call.run, scan_yields reading yields] at ih ⊢
    generalize scanKeys files options used (position + directive.keysStart) directive.keys = run at ih ⊢
    obtain ⟨inclusions, events, result⟩ := run
    obtain ⟨rfl, rfl⟩ := ih
    exact ⟨rfl, rfl⟩
  | @yields used position _ _ _ _ _ _ directive _ _ _ reading yields inside later insideIh laterIh =>
    simp only [Call.run, scan_yields reading yields] at insideIh ⊢
    generalize scanKeys files options used (position + directive.keysStart) directive.keys = run
      at insideIh ⊢
    obtain ⟨inclusions, events, result⟩ := run
    obtain ⟨rfl, rfl⟩ := insideIh
    exact (laterIh.map _).after
  | noKeys =>
    rw [Call.run, scanKeys_nil]
    exact ⟨rfl, rfl⟩
  | literalKey verbatim later ih =>
    rw [Call.run, scanKeys_literal verbatim]
    exact ih.map _
  | @keyHalted used base _ key _ _ isAt inside ih =>
    simp only [Call.run, scanKeys_scanned isAt] at ih ⊢
    generalize scan files options used (.start (base + key.offset)) 0 key.text = run at ih ⊢
    obtain ⟨inclusions, events, result⟩ := run
    obtain ⟨rfl, rfl⟩ := ih
    exact ⟨rfl, rfl⟩
  | @scannedKey used base _ _ key _ parts _ isAt inside later insideIh laterIh =>
    simp only [Call.run, scanKeys_scanned isAt] at insideIh ⊢
    generalize scan files options used (.start (base + key.offset)) 0 key.text = run at insideIh ⊢
    obtain ⟨inclusions, events, result⟩ := run
    obtain ⟨rfl, rfl⟩ := insideIh
    rw [← Assembly.ofFragments_eq_collapse]
    exact (laterIh.map _).after

/-- A run counts no more inclusions than the limit allows, unless more were
counted before it began. -/
theorem inclusions_within (call : Call) :
    call.used + (call.run files options).inclusions.length ≤ max call.used options.includeLimit := by
  obtain ⟨count, outcome, ends⟩ := @exists_ends files options call
  rw [ends.run_endsWith.2]
  exact ends.count_within.2

end Interpolation

open Interpolation

/-- Interpolation ends, and asks for no more files than its limit. The recursion
between texts and their keys is well founded, so every call in it comes to an end
by the rules, and the outermost one to what the interpolation gives, with all
inclusions of nested scans counted. -/
theorem interpolate_terminates (files : Files) (options : Options) (text : Text) :
    let run := interpolate files options text
    WellFounded (Calls files options) ∧
    (∀ call, ∃ count outcome, Ends files options call count outcome) ∧
    (∀ count outcome, Ends files options (.text 0 (.start 0) 0 text) count outcome →
      run.result = outcome.map .collapse ∧ run.inclusions.length = count) ∧
    run.inclusions.length ≤ options.includeLimit := by
  intro run
  have scanned : run = (scan files options 0 (.start 0) 0 text).map .collapse :=
    interpolate_eq_map_collapse files options text
  refine ⟨calls_wellFounded files options, exists_ends, fun count outcome ends => ?_, ?_⟩
  · obtain ⟨ended, counted⟩ := ends.run_endsWith.map Fragment.collapse
    rw [Call.used, Nat.zero_add] at counted
    rw [scanned]
    exact ⟨ended, counted⟩
  · have within := @inclusions_within files options (.text 0 (.start 0) 0 text)
    rw [Call.used, Call.run, Nat.zero_add, Nat.zero_max] at within
    rw [scanned]
    exact within

end StackTemplate
