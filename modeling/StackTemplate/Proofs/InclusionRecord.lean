import StackTemplate.Proofs.ScanTermination

/-! What a run reads. `Interpolation.Asks` says of a call that it has a directive in front of
it that names a file, and the calls below a call are those of `Calls`; so which files are
asked for is said without the record of the run, and the record holds exactly those. That
nothing else is read is seen from runs on other files: `Relies` is kept by every step, and
two runs whose files answer alike for the record are the same. -/
namespace StackTemplate

namespace Interpolation

/-- The call has a directive in front of it that names the path, and the limit leaves room
for its file. -/
inductive Asks (options : Options) (named : Text) : Call → Prop where
  | directive {used position : Nat} {origin : Origin} {text extent rest : Text}
      (reading : Directive.read text = ⟨.inclusion named, extent, rest⟩)
      (room : used < options.includeLimit) :
      Asks options named (.text used origin position ('@' :: text))

/-- A call at the bottom of this one's calls has the path in front of it. -/
def AsksBelow (files : Files) (options : Options) (named : Text) (call : Call) : Prop :=
  ∃ inner, Relation.ReflTransGen (Calls files options) inner call ∧ Asks options named inner

/-- Interpolating the text comes upon a directive that names the path: in the text itself,
in a key, or in what a file brought in. -/
def ComesUpon (files : Files) (options : Options) (text named : Text) : Prop :=
  AsksBelow files options named (.text 0 (.start 0) 0 text)

variable {files : Files} {options : Options}

/-- The inclusion is a path that the call or one below it asks for, where the options
locate it. -/
def Explains (files : Files) (options : Options) (call : Call) (inclusion : Inclusion) : Prop :=
  AsksBelow files options inclusion.named call ∧ inclusion.path = options.locate inclusion.named

theorem AsksBelow.caller {named : Text} {callee caller : Call}
    (asks : AsksBelow files options named callee) (calls : Calls files options callee caller) :
    AsksBelow files options named caller := by
  obtain ⟨inner, below, asked⟩ := asks
  exact ⟨inner, below.tail calls, asked⟩

theorem Explains.caller {inclusion : Inclusion} {callee caller : Call}
    (explains : Explains files options callee inclusion) (calls : Calls files options callee caller) :
    Explains files options caller inclusion :=
  ⟨explains.1.caller calls, explains.2⟩

theorem Asks.explains {named : Text} {call : Call} (asks : Asks options named call) :
    Explains files options call ⟨named, options.locate named⟩ :=
  ⟨⟨call, .refl, asks⟩, rfl⟩

/-- What a call asks for is recorded with the path it was read at. -/
theorem Asks.recorded {named : Text} {call : Call} (asks : Asks options named call) :
    ⟨named, options.locate named⟩ ∈ (call.run files options).inclusions := by
  obtain ⟨reading, room⟩ := asks
  rw [Call.run, scan_inclusion reading, if_pos room]
  cases files (options.locate named) with
  | error fault => simp
  | ok content => simp

/-- The record of a call holds the records of the calls it makes. -/
theorem Calls.recorded {callee caller : Call} (calls : Calls files options callee caller) :
    (callee.run files options).inclusions ⊆ (caller.run files options).inclusions := by
  cases calls with
  | text plain =>
    rw [Call.run, Call.run, scan_text plain, Run.inclusions_map]
    exact List.Subset.refl _
  | included reading room held =>
    rw [Call.run, Call.run, scan_inclusion reading, if_pos room, held, Run.inclusions_after]
    exact List.subset_append_right _ _
  | @keys used position _ _ _ _ directive _ reading yields =>
    rw [Call.run, Call.run, scan_yields reading yields]
    generalize scanKeys files options used (position + directive.keysStart) directive.keys = run
    obtain ⟨inclusions, events, result⟩ := run
    cases result with
    | error error => exact List.Subset.refl _
    | ok keys => exact List.subset_append_left _ _
  | @rest used position middle _ _ _ _ directive _ found reading yields inside =>
    have ended := inside.run_endsWith
    rw [Call.run] at ended
    rw [Call.run, Call.run, scan_yields reading yields]
    generalize scanKeys files options used (position + directive.keysStart) directive.keys = run at ended ⊢
    obtain ⟨inclusions, events, result⟩ := run
    obtain ⟨rfl, rfl⟩ := ended
    exact List.subset_append_right _ _
  | pastLiteral verbatim =>
    rw [Call.run, Call.run, scanKeys_literal verbatim, Run.inclusions_map]
    exact List.Subset.refl _
  | @key used base key _ isAt =>
    rw [Call.run, Call.run, scanKeys_scanned isAt]
    generalize scan files options used (.start (base + key.offset)) 0 key.text = run
    obtain ⟨inclusions, events, result⟩ := run
    cases result with
    | error error => exact List.Subset.refl _
    | ok parts => exact List.subset_append_left _ _
  | @pastKey used base middle key _ parts isAt inside =>
    have ended := inside.run_endsWith
    rw [Call.run] at ended
    rw [Call.run, Call.run, scanKeys_scanned isAt]
    generalize scan files options used (.start (base + key.offset)) 0 key.text = run at ended ⊢
    obtain ⟨inclusions, events, result⟩ := run
    obtain ⟨rfl, rfl⟩ := ended
    exact List.subset_append_right _ _

theorem AsksBelow.recorded {named : Text} {call : Call} (asks : AsksBelow files options named call) :
    ⟨named, options.locate named⟩ ∈ (call.run files options).inclusions := by
  obtain ⟨inner, below, asked⟩ := asks
  induction below with
  | refl => exact asked.recorded
  | tail _ calls ih => exact calls.recorded ih

/-- A run that went through is an ending of its call. -/
private theorem ends_of_ran {call : Call} {inclusions : List Inclusion} {events : List Event}
    {found : List Fragment} (ran : call.run files options = ⟨inclusions, events, .ok found⟩) :
    Ends files options call (call.used + inclusions.length) (.ok found) := by
  obtain ⟨count, outcome, ends⟩ := @exists_ends files options call
  have ended := ends.run_endsWith
  rw [ran] at ended
  obtain ⟨rfl, rfl⟩ := ended
  exact ends

/-- Nothing is recorded but what some call asked for. -/
private theorem explains_of_recorded (files : Files) (options : Options) :
    (∀ used origin position text,
      ∀ inclusion ∈ (scan files options used origin position text).inclusions,
        Explains files options (.text used origin position text) inclusion) ∧
    ∀ used base keys, ∀ inclusion ∈ (scanKeys files options used base keys).inclusions,
      Explains files options (.keys used base keys) inclusion := by
  apply scan_induction files options
  case nil =>
    intro used origin position inclusion member
    simp at member
  case text =>
    intro used origin position c text plain ih inclusion member
    rw [scan_text plain] at member
    exact (ih inclusion member).caller (.text plain)
  case unclosed =>
    intro used origin position text delimiter offset extent rest reading inclusion member
    rw [scan_unclosed reading] at member
    cases member
  case inclusion =>
    intro used origin position text named extent rest reading ih inclusion member
    rw [scan_inclusion reading] at member
    by_cases room : used < options.includeLimit
    · have own : Asks options named (.text used origin position ('@' :: text)) := ⟨reading, room⟩
      rw [if_pos room] at member
      cases held : files (options.locate named) with
      | error fault =>
        rw [held] at member
        obtain rfl := List.mem_singleton.mp member
        exact own.explains
      | ok content =>
        rw [held, Run.inclusions_after, List.singleton_append] at member
        obtain rfl | later := List.mem_cons.mp member
        · exact own.explains
        · exact (ih content room held inclusion later).caller (.included reading room held)
    · rw [if_neg room] at member
      cases member
  case yields =>
    intro used origin position text directive extent rest build reading yields keysIh restIh
      inclusion member
    rw [scan_yields reading yields] at member
    generalize keysRan : scanKeys files options used (position + directive.keysStart) directive.keys = run
      at keysIh member
    obtain ⟨inclusions, events, result⟩ := run
    cases result with
    | error error => exact (keysIh inclusion member).caller (.keys reading yields)
    | ok found =>
      obtain here | later := List.mem_append.mp member
      · exact (keysIh inclusion here).caller (.keys reading yields)
      · exact (restIh inclusions events found keysRan inclusion later).caller
          (.rest reading yields (ends_of_ran keysRan))
  case noKeys =>
    intro used base inclusion member
    simp at member
  case literalKey =>
    intro used base key more verbatim ih inclusion member
    rw [scanKeys_literal verbatim] at member
    exact (ih inclusion member).caller (.pastLiteral verbatim)
  case scannedKey =>
    intro used base key more isAt keyIh moreIh inclusion member
    rw [scanKeys_scanned isAt] at member
    generalize keyRan : scan files options used (.start (base + key.offset)) 0 key.text = run
      at keyIh member
    obtain ⟨inclusions, events, result⟩ := run
    cases result with
    | error error => exact (keyIh inclusion member).caller (.key isAt)
    | ok parts =>
      obtain here | later := List.mem_append.mp member
      · exact (keyIh inclusion here).caller (.key isAt)
      · exact (moreIh inclusions events parts keyRan inclusion later).caller
          (.pastKey isAt (ends_of_ran keyRan))

end Interpolation

open Interpolation

/-- The record of an interpolation: the paths it comes upon, each where it was located. -/
theorem mem_inclusions_interpolate {files : Files} {options : Options} {text : Text}
    {inclusion : Inclusion} :
    inclusion ∈ (interpolate files options text).inclusions ↔
      ComesUpon files options text inclusion.named ∧
        inclusion.path = options.locate inclusion.named := by
  constructor
  · intro member
    exact (explains_of_recorded files options).1 0 (.start 0) 0 text inclusion member
  · rintro ⟨asks, placed⟩
    have recorded := asks.recorded
    rw [← placed] at recorded
    exact recorded

/-- Text from a file in a folder names files from the base directory, not from that folder. -/
example :
    let files : Files := fun path =>
      if path = ['t', '/', 'x', '/', 'k'] then .ok ('@' :: Directive.scheme ++ ['y'])
      else .error .notFound
    (interpolate files { baseDir := some ['t'] } ('@' :: Directive.scheme ++ ['x', '/', 'k'])).inclusions =
      [⟨['x', '/', 'k'], ['t', '/', 'x', '/', 'k']⟩, ⟨['y'], ['t', '/', 'y']⟩] := by cbv

/-- A computation relies on the files it records: it runs alike on other files that answer
the same for them, and if it fails over a file, that is the last one it asked for. -/
structure Relies (files : Files) (computation : Files → Run α) : Prop where
  alike : ∀ other : Files,
    (∀ inclusion ∈ (computation files).inclusions, other inclusion.path = files inclusion.path) →
      computation other = computation files
  blames : ∀ path fault, (computation files).result = .error (.unreadableInclusion path fault) →
    files path = .error fault ∧ ∃ named, (computation files).inclusions.getLast? = some ⟨named, path⟩

namespace Relies

variable {files : Files}

theorem done (value : α) : Relies files fun _ => .done value :=
  ⟨fun _ _ => rfl, fun _ _ failed => by cases failed⟩

theorem fail {error : Error} (other : ∀ path fault, error ≠ .unreadableInclusion path fault) :
    Relies files fun _ => (.fail error : Run α) :=
  ⟨fun _ _ => rfl, fun path fault failed => absurd (Except.error.inj failed) (other path fault)⟩

theorem map {computation : Files → Run α} (relies : Relies files computation) (f : α → β) :
    Relies files fun files => (computation files).map f := by
  constructor
  · intro other agree
    exact congrArg (Run.map f) (relies.alike other agree)
  · intro path fault failed
    refine relies.blames path fault ?_
    rw [Run.result_map] at failed
    generalize (computation files).result = result at failed ⊢
    cases result with
    | ok value => cases failed
    | error error =>
      cases failed
      rfl

theorem after {computation : Files → Run α} (relies : Relies files computation) (events : List Event) :
    Relies files fun files => (computation files).after [] events :=
  ⟨fun other agree => congrArg (Run.after · [] events) (relies.alike other agree), relies.blames⟩

/-- One computation and, if it goes through, another that may depend on its record. An
error may be told differently on the way unless it is about a file. -/
theorem sequel {first : Files → Run α} {whole : Files → Run β} {relocate : Error → Error}
    {next : List Inclusion → List Event → α → Files → Run β}
    (relies : Relies files first) (told : List Event → α → List Event)
    (kept : ∀ error path fault, relocate error = .unreadableInclusion path fault →
      error = .unreadableInclusion path fault)
    (stops : ∀ files inclusions events error, first files = ⟨inclusions, events, .error error⟩ →
      whole files = ⟨inclusions, events, .error (relocate error)⟩)
    (goes : ∀ files inclusions events value, first files = ⟨inclusions, events, .ok value⟩ →
      whole files = (next inclusions events value files).after inclusions (told events value))
    (later : ∀ inclusions events value, first files = ⟨inclusions, events, .ok value⟩ →
      Relies files (next inclusions events value)) :
    Relies files whole := by
  obtain ⟨alike, blames⟩ := relies
  rcases ran : first files with ⟨inclusions, events, error | value⟩
  · have here := stops files _ _ _ ran
    rw [ran] at alike blames
    constructor
    · intro other agree
      rw [here] at agree ⊢
      exact stops other _ _ _ (alike other agree)
    · intro path fault failed
      rw [here] at failed ⊢
      obtain rfl := kept error path fault (Except.error.inj failed)
      exact blames path fault rfl
  · have here := goes files _ _ _ ran
    obtain ⟨laterAlike, laterBlames⟩ := later inclusions events value ran
    rw [ran] at alike
    constructor
    · intro other agree
      rw [here] at agree ⊢
      obtain ⟨early, late⟩ := List.forall_mem_append.mp agree
      rw [goes other _ _ _ (alike other early), laterAlike other late]
    · intro path fault failed
      rw [here] at failed ⊢
      obtain ⟨faulty, named, last⟩ := laterBlames path fault failed
      refine ⟨faulty, named, ?_⟩
      rw [Run.inclusions_after, List.getLast?_append, last]
      rfl

theorem bind {first : Files → Run α} {next : α → Files → Run β} (relies : Relies files first)
    (later : ∀ value, Relies files (next value)) :
    Relies files fun files => (first files).bind fun value => next value files := by
  refine relies.sequel (fun events _ => events) (fun _ _ _ same => same) ?_ ?_ fun _ _ value _ => later value
  · intro files inclusions events error ran
    rw [ran]
    rfl
  · intro files inclusions events value ran
    rw [ran]
    rfl

end Relies

namespace Interpolation

variable {files : Files} {options : Options}

private theorem relocate_kept (origin : Origin) (error : Error) (path : Text) (fault : Fault)
    (same : origin.relocate error = .unreadableInclusion path fault) :
    error = .unreadableInclusion path fault := by
  cases error with
  | unterminated delimiter offset => cases same
  | _ => exact same

/-- The step of an inclusion relies on the file it asks for. -/
private theorem relies_inclusion {used position : Nat} {origin : Origin}
    {text named extent rest : Text}
    (reading : Directive.read text = ⟨.inclusion named, extent, rest⟩)
    (later : ∀ content, used < options.includeLimit → files (options.locate named) = .ok content →
      Relies files fun files => scan files options (used + 1)
        (origin.splice position (position + 1 + Text.byteLength extent) (Text.byteLength content))
        0 (content ++ rest)) :
    Relies files fun files => scan files options used origin position ('@' :: text) := by
  by_cases room : used < options.includeLimit
  · simp only [scan_inclusion reading, if_pos room]
    cases held : files (options.locate named) with
    | error fault =>
      constructor
      · intro other agree
        rw [held] at agree
        have here := agree _ (List.mem_singleton_self _)
        simp only at here
        simp only [here, held]
      · intro path fault' failed
        simp only [held] at failed ⊢
        cases failed
        exact ⟨held, named, rfl⟩
    | ok content =>
      obtain ⟨alike, blames⟩ := later content room held
      constructor
      · intro other agree
        rw [held] at agree
        obtain ⟨here, late⟩ := List.forall_mem_append.mp agree
        have here := here _ (List.mem_singleton_self _)
        simp only at here
        simp only [here, held]
        rw [alike other late]
      · intro path fault failed
        simp only [held] at failed ⊢
        obtain ⟨faulty, inner, last⟩ := blames path fault failed
        refine ⟨faulty, inner, ?_⟩
        rw [Run.inclusions_after, List.getLast?_append, last]
        rfl
  · simp only [scan_inclusion reading, if_neg room]
    exact .fail fun _ _ => Error.noConfusion

/-- A scan relies on the files it records, and so does the scan of keys. -/
theorem scan_relies (files : Files) (options : Options) :
    (∀ used origin position text,
      Relies files fun files => scan files options used origin position text) ∧
    ∀ used base keys, Relies files fun files => scanKeys files options used base keys := by
  apply scan_induction files options
  case nil =>
    intro used origin position
    simp only [scan_nil]
    exact .done []
  case text =>
    intro used origin position c text plain ih
    simp only [scan_text plain]
    exact ih.map _
  case unclosed =>
    intro used origin position text delimiter offset extent rest reading
    simp only [scan_unclosed reading]
    exact .fail fun _ _ => Error.noConfusion
  case inclusion =>
    intro used origin position text named extent rest reading ih
    exact relies_inclusion reading ih
  case yields =>
    intro used origin position text directive extent rest build reading yields keysIh restIh
    refine keysIh.sequel (fun events keys => events ++ directive.reports position keys)
      (relocate_kept origin) ?_ ?_
      fun inclusions events keys ran => (restIh inclusions events keys ran).map (build keys :: ·)
    · intro files inclusions events error ran
      rw [scan_yields reading yields, ran]
    · intro files inclusions events keys ran
      rw [scan_yields reading yields, ran]
  case noKeys =>
    intro used base
    simp only [scanKeys_nil]
    exact .done []
  case literalKey =>
    intro used base key more verbatim ih
    simp only [scanKeys_literal verbatim]
    exact ih.map _
  case scannedKey =>
    intro used base key more isAt keyIh moreIh
    refine keyIh.sequel (fun events _ => events) (fun _ _ _ same => same) ?_ ?_ fun inclusions events parts ran =>
      (moreIh inclusions events parts ran).map (Assembly.ofFragments parts :: ·)
    · intro files inclusions events error ran
      rw [scanKeys_scanned isAt, ran]
    · intro files inclusions events parts ran
      rw [scanKeys_scanned isAt, ran]

end Interpolation

end StackTemplate
