import StackTemplate.Proofs.ScanSteps

/-! A scan only depends on the inclusions that are still allowed and on the text
in front of it. Where the text stands and how much was included before can be
seen in the offsets and the limit of an error, and nowhere else. -/
namespace StackTemplate

/-- Errors of two scans that differ in no more than the offset and the limit they
tell. `places` relates the offsets. -/
inductive Error.Matches (places : Nat → Nat → Prop) (limit other : Nat) : Error → Error → Prop where
  | unterminated {offset offset' : Nat} (delimiter : Delimiter) (placed : places offset offset') :
      Matches places limit other (.unterminated delimiter offset) (.unterminated delimiter offset')
  | unreadable (path : Text) (fault : Fault) :
      Matches places limit other (.unreadableInclusion path fault) (.unreadableInclusion path fault)
  | tooMany : Matches places limit other (.tooManyInclusions limit) (.tooManyInclusions other)

/-- Runs that include the same files and end alike. -/
inductive Run.Matches (places : Nat → Nat → Prop) (limit other : Nat) : Run α → Run α → Prop where
  | ended (inclusions : List Inclusion) (events events' : List Event) (value : α) :
      Matches places limit other ⟨inclusions, events, .ok value⟩ ⟨inclusions, events', .ok value⟩
  | failed {error error' : Error} (inclusions : List Inclusion) (events events' : List Event)
      (errors : error.Matches places limit other error') :
      Matches places limit other ⟨inclusions, events, .error error⟩ ⟨inclusions, events', .error error'⟩

namespace Run.Matches

theorem map {run run' : Run α} (matched : run.Matches places limit other run') (f : α → β) :
    (run.map f).Matches places limit other (run'.map f) := by
  cases matched with
  | ended inclusions events events' value => exact .ended _ _ _ (f value)
  | failed inclusions events events' errors => exact .failed _ _ _ errors

theorem after {run run' : Run α} (matched : run.Matches places limit other run')
    (inclusions : List Inclusion) (events events' : List Event) :
    (run.after inclusions events).Matches places limit other (run'.after inclusions events') := by
  cases matched with
  | ended own early late value => exact .ended (inclusions ++ own) (events ++ early) (events' ++ late) value
  | failed own early late errors =>
    exact .failed (inclusions ++ own) (events ++ early) (events' ++ late) errors

/-- A run that went through tells how the other one went. -/
theorem ok {run : Run α} {inclusions : List Inclusion} {events : List Event} {value : α}
    (matched : Run.Matches places limit other ⟨inclusions, events, .ok value⟩ run) :
    ∃ events', run = ⟨inclusions, events', .ok value⟩ := by
  cases matched with
  | ended _ _ events' _ => exact ⟨events', rfl⟩

end Run.Matches

/-- Relocating both errors keeps the match when both origins are followed. -/
theorem Error.Matches.relocate {error error' : Error} {origin origin' : Origin}
    {position position' : Nat} {places : Nat → Nat → Prop}
    (placed : ∀ k, places (origin.offset (position + k)) (origin'.offset (position' + k)))
    (matched : error.Matches (fun offset offset' => ∃ k, offset = position + k ∧ offset' = position' + k)
      limit other error') :
    (origin.relocate error).Matches places limit other (origin'.relocate error') := by
  cases matched with
  | unterminated delimiter shifted =>
    obtain ⟨k, rfl, rfl⟩ := shifted
    exact .unterminated delimiter (placed k)
  | unreadable path fault => exact .unreadable path fault
  | tooMany => exact .tooMany

namespace Interpolation

private theorem splice_places {origin origin' : Origin} {position position' : Nat}
    {places : Nat → Nat → Prop}
    (placed : ∀ k, places (origin.offset (position + k)) (origin'.offset (position' + k)))
    (length size k : Nat) :
    places ((origin.splice position (position + 1 + length) size).offset (0 + k))
      ((origin'.splice position' (position' + 1 + length) size).offset (0 + k)) := by
  rw [Origin.offset_splice _ (by omega), Origin.offset_splice _ (by omega)]
  split
  · simpa using placed 0
  · simpa [Nat.add_assoc] using placed (1 + (length + (0 + k - size)))

/-- Two scans of one text with as many inclusions left match each other, whatever
was included before and wherever the text stands. -/
theorem scan_matches {files : Files} {options options' : Options}
    (sameBase : options.baseDir = options'.baseDir) :
    (∀ used origin position text, ∀ used' origin' position' (places : Nat → Nat → Prop),
      options.includeLimit - used = options'.includeLimit - used' →
      (∀ k, places (origin.offset (position + k)) (origin'.offset (position' + k))) →
      (scan files options used origin position text).Matches places options.includeLimit
        options'.includeLimit (scan files options' used' origin' position' text)) ∧
    ∀ used base keys, ∀ used' base' (places : Nat → Nat → Prop),
      options.includeLimit - used = options'.includeLimit - used' →
      (∀ k, places (base + k) (base' + k)) →
      (scanKeys files options used base keys).Matches places options.includeLimit
        options'.includeLimit (scanKeys files options' used' base' keys) := by
  have located (named : Text) : options.locate named = options'.locate named := by
    simp only [Options.locate, sameBase]
  apply scan_induction files options
  case nil =>
    intro used origin position used' origin' position' places _ _
    rw [scan_nil, scan_nil]
    exact .ended _ _ _ _
  case text =>
    intro used origin position c text plain ih used' origin' position' places left placed
    rw [scan_text plain, scan_text plain]
    exact (ih _ _ _ _ left fun k => by simpa [Nat.add_assoc] using placed (c.utf8Size + k)).map _
  case unclosed =>
    intro used origin position text delimiter offset extent rest reading
      used' origin' position' places _ placed
    rw [scan_unclosed reading, scan_unclosed reading]
    exact .failed _ _ _ (.unterminated delimiter (placed offset))
  case inclusion =>
    intro used origin position text named extent rest reading ih used' origin' position' places left placed
    rw [scan_inclusion reading, scan_inclusion reading, ← located]
    by_cases room : used < options.includeLimit
    · rw [if_pos room, if_pos (by omega)]
      cases held : files (options.locate named) with
      | error fault => exact .failed _ _ _ (.unreadable _ fault)
      | ok content =>
        exact (ih content room held _ _ _ _ (by omega) (splice_places placed _ _)).after _ _ _
    · rw [if_neg room, if_neg (by omega)]
      exact .failed _ _ _ .tooMany
  case yields =>
    intro used origin position text directive extent rest build reading yields keys after
      used' origin' position' places left placed
    have scanned := keys used' (position' + directive.keysStart)
      (fun offset offset' => ∃ k, offset = position + k ∧ offset' = position' + k) left
      (fun k => ⟨directive.keysStart + k, by omega, by omega⟩)
    rw [scan_yields reading yields, scan_yields reading yields]
    generalize ran : scanKeys files options used (position + directive.keysStart) directive.keys = run
      at scanned ⊢
    generalize scanKeys files options' used' (position' + directive.keysStart) directive.keys = run'
      at scanned ⊢
    cases scanned with
    | failed inclusions events events' errors => exact .failed _ _ _ (errors.relocate placed)
    | ended inclusions events events' found =>
      refine ((after _ _ _ ran _ _ _ _ (by omega) fun k => ?_).map _).after _ _ _
      simpa [Nat.add_assoc] using placed (1 + (Text.byteLength extent + k))
  case noKeys =>
    intro used base used' base' places _ _
    rw [scanKeys_nil, scanKeys_nil]
    exact .ended _ _ _ _
  case literalKey =>
    intro used base key more verbatim ih used' base' places left placed
    rw [scanKeys_literal verbatim, scanKeys_literal verbatim]
    exact (ih _ _ _ left placed).map _
  case scannedKey =>
    intro used base key more isAt inside after used' base' places left placed
    have scanned := inside used' (.start (base' + key.offset)) 0 places left
      (fun k => by simpa [Nat.add_assoc] using placed (key.offset + k))
    rw [scanKeys_scanned isAt, scanKeys_scanned isAt]
    generalize ran : scan files options used (.start (base + key.offset)) 0 key.text = run
      at scanned ⊢
    generalize scan files options' used' (.start (base' + key.offset)) 0 key.text = run'
      at scanned ⊢
    cases scanned with
    | failed inclusions events events' errors => exact .failed _ _ _ errors
    | ended inclusions events events' parts =>
      exact ((after _ _ _ ran _ _ _ (by omega) placed).map _).after _ _ _

/-- What a text comes to does not depend on where it stands, and on nothing of the
options but the directory and the inclusions that are left. -/
theorem scan_ran_alike {files : Files} {options options' : Options} {used used' : Nat} {text : Text}
    {origin origin' : Origin} {position position' : Nat} {inclusions : List Inclusion}
    {events : List Event} {parts : List Fragment} (sameBase : options.baseDir = options'.baseDir)
    (left : options.includeLimit - used = options'.includeLimit - used')
    (ran : scan files options used origin position text = ⟨inclusions, events, .ok parts⟩) :
    ∃ events', scan files options' used' origin' position' text = ⟨inclusions, events', .ok parts⟩ := by
  have matched := (@scan_matches files options options' sameBase).1 used origin position text used'
    origin' position' (fun _ _ => True) left fun _ => trivial
  rw [ran] at matched
  exact matched.ok

/-- Nor does it matter to keys where they stand. -/
theorem scanKeys_ran_alike {files : Files} {options : Options} {used : Nat} {keys : List Directive.Key}
    {base base' : Nat} {inclusions : List Inclusion} {events : List Event} {found : List Fragment}
    (ran : scanKeys files options used base keys = ⟨inclusions, events, .ok found⟩) :
    ∃ events', scanKeys files options used base' keys = ⟨inclusions, events', .ok found⟩ := by
  have matched := (@scan_matches files options options rfl).2 used base keys used base'
    (fun _ _ => True) rfl fun _ => trivial
  rw [ran] at matched
  exact matched.ok

end Interpolation

end StackTemplate
