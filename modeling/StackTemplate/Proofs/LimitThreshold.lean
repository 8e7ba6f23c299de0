import Mathlib
import StackTemplate.Proofs.ScanTermination

/-! The limit on inclusions is a threshold and nothing else. A run that kept to
its limit is the same under every limit its inclusions fit in, and under a smaller
one it is cut off in front of the first inclusion that does not fit. -/
namespace StackTemplate

/-- The run was stopped by its limit. -/
def Run.Stopped (run : Run α) : Prop :=
  ∃ limit, run.result = .error (.tooManyInclusions limit)

/-- What becomes of a run, begun after `used` inclusions, under a limit: it stays
whole, or it is cut off after as many inclusions as the limit leaves. -/
inductive Run.CutAt (limit used : Nat) : Run α → Run α → Prop where
  | whole {run : Run α} (fits : used + run.inclusions.length ≤ limit) : CutAt limit used run run
  | short {run other : Run α} (exceeds : limit < used + run.inclusions.length)
      (taken : other.inclusions = run.inclusions.take (limit - used))
      (ended : other.result = .error (.tooManyInclusions limit)) : CutAt limit used run other

namespace Run

theorem not_stopped_ok {inclusions : List Inclusion} {events : List Event} {value : α} :
    ¬Stopped ⟨inclusions, events, .ok value⟩ := by
  rintro ⟨limit, ended⟩
  cases ended

theorem stopped_map {run : Run α} {f : α → β} (stopped : run.Stopped) : (run.map f).Stopped := by
  obtain ⟨limit, ended⟩ := stopped
  exact ⟨limit, by rw [result_map, ended]; rfl⟩

theorem stopped_relocate {origin : Origin} {error : Error} {inclusions : List Inclusion}
    {events : List Event} (stopped : Stopped (⟨inclusions, events, .error error⟩ : Run α)) :
    Stopped (⟨inclusions, events, .error (origin.relocate error)⟩ : Run β) := by
  obtain ⟨limit, ended⟩ := stopped
  cases ended
  exact ⟨limit, rfl⟩

namespace CutAt

variable {limit used : Nat} {run other : Run α}

theorem map (cutAt : CutAt limit used run other) (f : α → β) :
    CutAt limit used (run.map f) (other.map f) := by
  cases cutAt with
  | whole fits => exact .whole fits
  | short exceeds taken ended => exact .short exceeds taken (by rw [result_map, ended]; rfl)

/-- What was included before the run still fits. -/
theorem after {inclusions : List Inclusion} (cutAt : CutAt limit (used + inclusions.length) run other)
    (fits : used + inclusions.length ≤ limit) (events : List Event) :
    CutAt limit used (run.after inclusions events) (other.after inclusions events) := by
  cases cutAt with
  | whole laterFits =>
    apply CutAt.whole
    rw [inclusions_after, List.length_append]
    omega
  | short exceeds taken ended =>
    apply CutAt.short
    · rw [inclusions_after, List.length_append]
      omega
    · have long : inclusions.length ≤ limit - used := by omega
      rw [inclusions_after, inclusions_after, taken, List.take_append, List.take_of_length_le long,
        Nat.sub_sub]
    · exact ended

/-- A run is cut off where its first part is. -/
theorem early {inclusions : List Inclusion} (exceeds : limit < used + inclusions.length)
    (later : Run α) (events : List Event) (taken : other.inclusions = inclusions.take (limit - used))
    (ended : other.result = .error (.tooManyInclusions limit)) :
    CutAt limit used (later.after inclusions events) other := by
  apply CutAt.short
  · rw [inclusions_after, List.length_append]
    omega
  · have short : limit - used ≤ inclusions.length := by omega
    rw [inclusions_after, taken, List.take_append_of_le_length short]
  · exact ended

end CutAt

end Run

namespace Interpolation
open Directive (Key)

/-- A scan that its limit did not stop, seen under another limit. -/
theorem scan_cutAt (files : Files) (options : Options) (limit : Nat) :
    (∀ used origin position text, used ≤ limit →
      ¬(scan files options used origin position text).Stopped →
      Run.CutAt limit used (scan files options used origin position text)
        (scan files { options with includeLimit := limit } used origin position text)) ∧
    ∀ used base keys, used ≤ limit → ¬(scanKeys files options used base keys).Stopped →
      Run.CutAt limit used (scanKeys files options used base keys)
        (scanKeys files { options with includeLimit := limit } used base keys) := by
  have located (named : Text) :
      options.locate named = Options.locate { options with includeLimit := limit } named := rfl
  apply scan_induction files options
  case nil =>
    intro used origin position fits _
    rw [scan_nil, scan_nil]
    exact .whole fits
  case text =>
    intro used origin position c text plain ih fits finished
    rw [scan_text plain] at finished ⊢
    rw [scan_text plain]
    exact (ih fits (finished ∘ Run.stopped_map)).map _
  case unclosed =>
    intro used origin position text delimiter offset extent rest reading fits _
    rw [scan_unclosed reading, scan_unclosed reading]
    exact .whole fits
  case inclusion =>
    intro used origin position text named extent rest reading ih fits finished
    rw [scan_inclusion reading] at finished ⊢
    rw [scan_inclusion reading, ← located]
    by_cases room : used < options.includeLimit
    · rw [if_pos room] at finished ⊢
      generalize held : files (options.locate named) = answer at finished ⊢
      by_cases fitsOne : used < limit
      · rw [if_pos fitsOne]
        cases answer with
        | error fault => exact .whole fitsOne
        | ok content => exact (ih content room held fitsOne finished).after fitsOne _
      · obtain rfl : used = limit := by omega
        rw [if_neg fitsOne]
        cases answer with
        | error fault => exact .early (Nat.lt_succ_self _) _ _ (by simp) rfl
        | ok content => exact .early (Nat.lt_succ_self _) _ _ (by simp) rfl
    · rw [if_neg room] at finished
      exact absurd ⟨_, rfl⟩ finished
  case yields =>
    intro used origin position text directive extent rest build reading yields keys after fits finished
    rw [scan_yields reading yields] at finished ⊢
    rw [scan_yields reading yields]
    generalize ran : scanKeys files options used (position + directive.keysStart) directive.keys = run
      at keys finished ⊢
    generalize scanKeys files { options with includeLimit := limit } used
      (position + directive.keysStart) directive.keys = other at keys ⊢
    obtain ⟨inclusions, events, result⟩ := run
    cases result with
    | error error =>
      cases keys fits (finished ∘ Run.stopped_relocate) with
      | whole fits => exact .whole fits
      | short exceeds taken ended =>
        obtain ⟨own, told, result⟩ := other
        cases ended
        exact .short exceeds taken rfl
    | ok found =>
      cases keys fits Run.not_stopped_ok with
      | whole fits =>
        have later := after _ _ _ ran fits (finished ∘ Run.stopped_map)
        exact (later.map _).after fits _
      | short exceeds taken ended =>
        obtain ⟨own, told, result⟩ := other
        cases ended
        exact .early exceeds _ _ taken rfl
  case noKeys =>
    intro used base fits _
    rw [scanKeys_nil, scanKeys_nil]
    exact .whole fits
  case literalKey =>
    intro used base key more verbatim ih fits finished
    rw [scanKeys_literal verbatim] at finished ⊢
    rw [scanKeys_literal verbatim]
    exact (ih fits (finished ∘ Run.stopped_map)).map _
  case scannedKey =>
    intro used base key more isAt inside after fits finished
    rw [scanKeys_scanned isAt] at finished ⊢
    rw [scanKeys_scanned isAt]
    generalize ran : scan files options used (.start (base + key.offset)) 0 key.text = run
      at inside finished ⊢
    generalize scan files { options with includeLimit := limit } used
      (.start (base + key.offset)) 0 key.text = other at inside ⊢
    obtain ⟨inclusions, events, result⟩ := run
    cases result with
    | error error =>
      cases inside fits finished with
      | whole fits => exact .whole fits
      | short exceeds taken ended =>
        obtain ⟨own, told, result⟩ := other
        cases ended
        exact .short exceeds taken rfl
    | ok parts =>
      cases inside fits Run.not_stopped_ok with
      | whole fits =>
        have later := after _ _ _ ran fits (finished ∘ Run.stopped_map)
        exact (later.map _).after fits _
      | short exceeds taken ended =>
        obtain ⟨own, told, result⟩ := other
        cases ended
        exact .early exceeds _ _ taken rfl

end Interpolation

open Interpolation

/-- The limit is a threshold. Where a limit did not stop an interpolation, every
limit that its inclusions fit in gives the same run, a larger one among them; a
smaller one stops it after as many inclusions as it allows. -/
theorem interpolate_limit_threshold (files : Files) (options : Options) (text : Text)
    (finished : ¬(interpolate files options text).Stopped) (limit : Nat) :
    let run := interpolate files options text
    let other := interpolate files { options with includeLimit := limit } text
    (run.inclusions.length ≤ limit → other = run) ∧
    (limit < run.inclusions.length →
      other.result = .error (.tooManyInclusions limit) ∧
        other.inclusions = run.inclusions.take limit) ∧
    (options.includeLimit ≤ limit → other = run) := by
  intro run other
  have within := @inclusions_within files options (.text 0 (.start 0) 0 text)
  have cutAt : Run.CutAt limit 0 run other := by
    simp only [run, other, interpolate_eq_map_collapse] at finished ⊢
    exact ((scan_cutAt files options limit).1 0 (.start 0) 0 text (Nat.zero_le _)
      (finished ∘ Run.stopped_map)).map _
  have kept : run.inclusions.length ≤ options.includeLimit := by
    simpa [run, interpolate_eq_map_collapse, Call.used, Call.run] using within
  generalize run = run, other = other at cutAt kept ⊢
  cases cutAt with
  | whole fits =>
    refine ⟨fun _ => rfl, fun exceeds => ?_, fun _ => rfl⟩
    omega
  | short exceeds taken ended =>
    refine ⟨fun fits => ?_, fun _ => ⟨ended, taken⟩, fun raised => ?_⟩
    all_goals omega

/-- Two inclusions, one of them in a key: a limit of two lets them through and a
limit of one stops at the second. -/
theorem interpolate_limit_threshold_two_inclusions :
    let files : Files := fun path =>
      if path = ['k'] then .ok ['@', 'K'] else if path = ['t'] then .ok ['!'] else .error .notFound
    let text := ['@', 'M', '['] ++ '@' :: Directive.scheme ++ ['k', ']'] ++ '@' :: Directive.scheme ++ ['t']
    (interpolate files { includeLimit := 2 } text).result =
        .ok (.join [.byConvention ['M'] (.reference ['K']), .literal ['!']]) ∧
      (interpolate files { includeLimit := 1 } text).result = .error (.tooManyInclusions 1) := by
  intro files text
  have ran : (interpolate files {} text).result =
      .ok (.join [.byConvention ['M'] (.reference ['K']), .literal ['!']]) := by cbv
  have counted : (interpolate files {} text).inclusions.length = 2 := by cbv
  have finished : ¬(interpolate files {} text).Stopped := by
    rintro ⟨limit, stopped⟩
    cases ran.symm.trans stopped
  have two := (interpolate_limit_threshold files {} text finished 2).1 (by rw [counted])
  have one := (interpolate_limit_threshold files {} text finished 1).2.1 (by rw [counted]; decide)
  exact ⟨(congrArg Run.result two).trans ran, one.1⟩

end StackTemplate
