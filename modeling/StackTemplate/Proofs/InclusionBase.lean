import StackTemplate.Config
import StackTemplate.Json.Reader
import StackTemplate.Proofs.DocumentStrings
import StackTemplate.Proofs.InclusionRecord

/-! Where the inclusions of a document are read. A document has one base directory, and every
path that a directive names is seen from there: in a string of the document, in a key, or in
text that a file brought in, wherever that file was. This holds however documents and
configurations are read. -/
namespace StackTemplate

open Interpolation

namespace Document
open Json (Value)

/-- Each of the texts denotes something. -/
def GoThrough (denotes : Text → Except Error Fragment) (texts : List Text) : Prop :=
  ∀ text ∈ texts, ∃ fragment, denotes text = .ok fragment

theorem goThrough_append {denotes : Text → Except Error Fragment} {first second : List Text} :
    GoThrough denotes (first ++ second) ↔ GoThrough denotes first ∧ GoThrough denotes second :=
  List.forall_mem_append

/-- The text is reached: those before it go through. -/
def Reached (denotes : Text → Except Error Fragment) (texts : List Text) (text : Text) : Prop :=
  ∃ before after, texts = before ++ text :: after ∧ GoThrough denotes before

/-- Texts behind others are reached once those have gone through. -/
theorem reached_append {denotes : Text → Except Error Fragment} {first second : List Text} {text : Text} :
    Reached denotes (first ++ second) text ↔
      Reached denotes first text ∨ GoThrough denotes first ∧ Reached denotes second text := by
  constructor
  · rintro ⟨before, after, whole, through⟩
    rcases List.append_eq_append_iff.mp whole with ⟨gap, rfl, rest⟩ | ⟨gap, here, rest⟩
    · obtain ⟨early, late⟩ := goThrough_append.mp through
      exact .inr ⟨early, gap, after, rest, late⟩
    · cases gap with
      | nil =>
        rw [List.append_nil] at here
        subst here
        exact .inr ⟨through, [], after, rest.symm, List.forall_mem_nil _⟩
      | cons next gap =>
        cases rest
        exact .inl ⟨before, gap, here, through⟩
  · rintro (⟨before, after, rfl, through⟩ | ⟨early, before, after, rfl, late⟩)
    · exact ⟨before, after ++ second, by simp, through⟩
    · exact ⟨first ++ before, after, by simp, goThrough_append.mpr ⟨early, late⟩⟩

/-- A computation that interpolates texts in their order and reads nothing by itself: its
record is that of the texts reached, each interpolated alone. -/
structure Gathers (files : Files) (options : Options) (texts : List Text)
    (computation : Files → Run α) : Prop extends Relies files computation where
  through : (∃ value, (computation files).result = .ok value) ↔
    GoThrough (denotesAlone files options) texts
  records : ∀ inclusion, inclusion ∈ (computation files).inclusions ↔
    ∃ text, Reached (denotesAlone files options) texts text ∧
      inclusion ∈ (interpolate files options.interpolation text).inclusions

namespace Gathers

variable {files : Files} {options : Options} {texts later : List Text}

theorem done (value : α) : Gathers files options [] fun _ => .done value where
  toRelies := .done value
  through := ⟨fun _ => List.forall_mem_nil _, fun _ => ⟨value, rfl⟩⟩
  records := by simp [Reached]

private theorem exists_ok_map {result : Except Error α} (f : α → β) :
    (∃ value, result.map f = .ok value) ↔ ∃ value, result = .ok value := by
  cases result with
  | error error => simp [Except.map]
  | ok value => simp [Except.map]

theorem map {computation : Files → Run α} (gathers : Gathers files options texts computation)
    (f : α → β) : Gathers files options texts fun files => (computation files).map f where
  toRelies := gathers.toRelies.map f
  through := (exists_ok_map f).trans gathers.through
  records := gathers.records

theorem after {computation : Files → Run α} (gathers : Gathers files options texts computation)
    (events : List Event) :
    Gathers files options texts fun files => (computation files).after [] events where
  toRelies := gathers.toRelies.after events
  through := gathers.through
  records := gathers.records

/-- Two computations in turn: the second is only begun once the first went through. -/
theorem bind_map {first : Files → Run α} {second : Files → Run β}
    (gathers : Gathers files options texts first) (gathers' : Gathers files options later second)
    (f : α → β → γ) :
    Gathers files options (texts ++ later) fun files =>
      (first files).bind fun value => (second files).map (f value) := by
  have through := gathers.through
  have records := gathers.records
  refine ⟨gathers.toRelies.bind fun value => gathers'.toRelies.map (f value), ?_, ?_⟩
  all_goals
    generalize first files = run at through records ⊢
    obtain ⟨inclusions, events, error | value⟩ := run
  · have stopped : ¬GoThrough (denotesAlone files options) texts := by simpa using through
    simp [Run.bind, goThrough_append, stopped]
  · have early := through.mp ⟨value, rfl⟩
    simp [Run.bind, goThrough_append, early, exists_ok_map, gathers'.through]
  · have stopped : ¬GoThrough (denotesAlone files options) texts := by simpa using through
    simpa [Run.bind, reached_append, stopped] using records
  · have early := through.mp ⟨value, rfl⟩
    intro inclusion
    calc
      _ ↔ inclusion ∈ inclusions ∨ inclusion ∈ (second files).inclusions := by
        simp [Run.bind]
      _ ↔ _ := by
        rw [records inclusion, gathers'.records inclusion]
        simp [reached_append, early, or_and_right, exists_or]

end Gathers

variable (files : Files) (options : Options)

private theorem gathers_text (role : Role) (text : Text) :
    Gathers files options [text] fun files => processText files options role text := by
  have relies := ((scan_relies files options.interpolation).1 0 (.start 0) 0 text).map Assembly.ofFragments
  refine Gathers.map ⟨relies, ?_, fun inclusion => ?_⟩ _
  · exact (List.forall_mem_singleton (p := fun text => ∃ fragment, denotesAlone files options text = .ok fragment)).symm
  · have only {other : Text} : Reached (denotesAlone files options) [text] other ↔ other = text := by
      constructor
      · rintro ⟨before, after, whole, _⟩
        cases before with
        | nil => exact (List.cons.inj whole).1.symm
        | cons first before => simp at whole
      · rintro rfl
        exact ⟨[], [], rfl, List.forall_mem_nil _⟩
    simp only [only, exists_eq_left]
    rfl

mutual

/-- A value of any role is put together from its strings. -/
theorem gathers_process (role : Role) (value : Value) :
    Gathers files options value.strings fun files => process files options role value := by
  cases value with
  | string text => exact gathers_text files options role text
  | null => exact .done Value.null
  | boolean value => exact .done (Value.boolean value)
  | number value => exact .done (Value.number value)
  | array items => exact (gathers_processItems items).map Value.array
  | object entries =>
    have plain := (gathers_processEntries entries).map Value.object
    cases role with
    | plain => exact plain
    | userData => exact plain
    | tags => exact ((gathers_processTags entries).map Value.array).after _

theorem gathers_processItems (items : List Value) :
    Gathers files options (Value.itemStrings items) fun files => processItems files options items := by
  cases items with
  | nil => exact .done []
  | cons item items =>
    exact (gathers_process .plain item).bind_map (gathers_processItems items) (· :: ·)

theorem gathers_processEntries (entries : List (Text × Value)) :
    Gathers files options (Value.entryStrings entries) fun files =>
      processEntries files options entries := by
  cases entries with
  | nil => exact .done []
  | cons entry entries =>
    obtain ⟨key, value⟩ := entry
    exact (gathers_process (.ofKey options key) value).bind_map (gathers_processEntries entries)
      fun value entries => (key, value) :: entries

theorem gathers_processTags (tags : List (Text × Value)) :
    Gathers files options (Value.entryStrings tags) fun files => processTags files options tags := by
  cases tags with
  | nil => exact .done []
  | cons entry tags =>
    obtain ⟨name, value⟩ := entry
    exact (gathers_process .plain value).bind_map (gathers_processTags tags)
      fun value tags => tag name value :: tags

end

/-- Processing the document at a path comes upon a directive that names a path to include:
in a string that is reached, interpolated with the options for the document. -/
def Names (reader : Reader) (files : Files) (options : Options) (path named : Text) : Prop :=
  ∃ content value text, files path = .ok content ∧ reader (source content) = .ok value ∧
    Reached (denotesAlone files (options.forPath path)) value.strings text ∧
    ComesUpon files (options.forPath path).interpolation text named

/-- The directory that the inclusions of a document start from. -/
def baseFor (path : Text) : Text :=
  (options.interpolation.baseDir.or (Path.parent? path)).getD []

/-- Where a path is found that is seen from a base directory. -/
def seenFrom (base path : Text) : Text :=
  if Path.isRelative path then Path.join base path else path

variable {files options} {reader : Reader}

theorem join_eq_seenFrom (base path : Text) : Path.join base path = seenFrom base path := by
  cases relative : Path.isRelative path <;> simp [Path.join, seenFrom, relative]

/-- A path seen from nowhere is taken as it is. -/
theorem seenFrom_nil (path : Text) : seenFrom [] path = path := by
  simp [seenFrom, Path.join]

theorem baseDir_forPath (options : Options) (path : Text) :
    (options.forPath path).interpolation.baseDir =
      options.interpolation.baseDir.or (Path.parent? path) := by
  unfold Options.forPath
  split
  · next base chosen => rw [chosen, Option.some_or]
  · next unset => rw [unset, Option.none_or]

/-- The options for a document locate every path from its one base directory. -/
theorem locate_forPath (path named : Text) :
    (options.forPath path).interpolation.locate named = seenFrom (baseFor options path) named := by
  unfold Interpolation.Options.locate baseFor
  rw [baseDir_forPath]
  cases options.interpolation.baseDir.or (Path.parent? path) with
  | some base => exact join_eq_seenFrom base named
  | none => exact (seenFrom_nil named).symm

/-- A base directory that a configuration sets is seen from the configuration's own. -/
theorem baseFor_load {settings : Config.Reader} {stored : Files} {config text base : Text} {parsed : Options}
    (held : stored config = .ok text) (reads : settings text = .ok parsed)
    (sets : parsed.interpolation.baseDir = some base)
    (loaded : (Config.load settings stored config).result = .ok options) (path : Text) :
    baseFor options path = seenFrom ((Path.parent? config).getD []) base := by
  simp only [Config.load, Config.loadContent, held, reads] at loaded
  obtain rfl : Config.anchor config parsed = options := Except.ok.inj loaded
  unfold Config.anchor baseFor
  rw [sets]
  cases Path.parent? config with
  | some directory => exact join_eq_seenFrom directory base
  | none =>
    dsimp only
    rw [sets]
    exact (seenFrom_nil base).symm

/-- The record of a document: the paths it names, each seen from its base directory. -/
theorem mem_inclusions_processFile {path : Text} {inclusion : Inclusion} :
    inclusion ∈ (processFile reader files options path).inclusions ↔
      Names reader files options path inclusion.named ∧
        inclusion.path = seenFrom (baseFor options path) inclusion.named := by
  unfold processFile processContent Names
  cases files path with
  | error fault => simp
  | ok content =>
    simp only [Run.inclusions_after, List.nil_append, processSource]
    cases parsed : reader (source content) with
    | error line => cases Comment.leads content <;> simp [parsed]
    | ok value =>
      have records := (gathers_process files (options.forPath path) .plain value).records inclusion
      simp only [mem_inclusions_interpolate, locate_forPath, ← and_assoc, exists_and_right] at records
      cases Comment.leads content <;> simpa [parsed] using records

/-- Processing a document relies on the document and on the files it records. -/
theorem relies_processFile (path : Text) :
    (∀ other : Files, other path = files path →
      (∀ inclusion ∈ (processFile reader files options path).inclusions,
        other inclusion.path = files inclusion.path) →
      processFile reader other options path = processFile reader files options path) ∧
    ∀ failing fault, (processFile reader files options path).result =
        .error (.unreadableInclusion failing fault) →
      files failing = .error fault ∧
        ∃ named, (processFile reader files options path).inclusions.getLast? = some ⟨named, failing⟩ := by
  have relies (content : Text) : Relies files fun files =>
      (processSource reader files (options.forPath path) content).after []
        [.preprocessing path (options.forPath path).interpolation.baseDir] := by
    refine Relies.after ?_ _
    unfold processSource
    cases reader (source content) with
    | error line =>
      have fails : Relies files fun _ => (Run.fail (.malformedDocument line) : Run Value) :=
        .fail fun _ _ => Error.noConfusion
      cases Comment.leads content with
      | true => exact fails.after _
      | false => exact fails
    | ok value =>
      have made := (gathers_process files (options.forPath path) .plain value).toRelies
      cases Comment.leads content with
      | true => exact made.after _
      | false => exact made
  cases held : files path with
  | error fault =>
    constructor
    · intro other same _
      simp only [processFile, same, held, processContent]
    · intro failing fault failed
      simp only [processFile, held, processContent] at failed
      cases failed
  | ok content =>
    constructor
    · intro other same agree
      simp only [processFile, same, held, processContent] at agree ⊢
      exact (relies content).alike other agree
    · intro failing fault failed
      simp only [processFile, held, processContent] at failed ⊢
      exact (relies content).blames failing fault failed

/-- Every path that a document names is read from one base directory: the one the options
set, which a configuration may give as seen from its own directory, or else the directory
of the document. Files are read for nothing else, and an inclusion that fails is told with
the very path that was read. -/
theorem processFile_inclusions (reader : Reader) (settings : Config.Reader) (files : Files)
    (options : Options) (path : Text) :
    let run := processFile reader files options path
    let base := (options.interpolation.baseDir.or (Path.parent? path)).getD []
    let found := fun named => if Path.isRelative named then Path.join base named else named
    (∀ inclusion, inclusion ∈ run.inclusions ↔
      Names reader files options path inclusion.named ∧ inclusion.path = found inclusion.named) ∧
    (∀ failing fault, run.result = .error (.unreadableInclusion failing fault) →
      files failing = .error fault ∧
        ∃ named, Names reader files options path named ∧ failing = found named) ∧
    (∀ other : Files, other path = files path →
      (∀ named, Names reader files options path named → other (found named) = files (found named)) →
        processFile reader other options path = run) ∧
    ∀ (stored : Files) config text parsed chosen, stored config = .ok text →
      settings text = .ok parsed → parsed.interpolation.baseDir = some chosen →
      (Config.load settings stored config).result = .ok options →
      base = if Path.isRelative chosen then Path.join ((Path.parent? config).getD []) chosen
        else chosen := by
  intro run base found
  obtain ⟨alike, blames⟩ := @relies_processFile files options reader path
  have records (inclusion : Inclusion) : inclusion ∈ run.inclusions ↔
      Names reader files options path inclusion.named ∧ inclusion.path = found inclusion.named :=
    mem_inclusions_processFile
  refine ⟨records, fun failing fault failed => ?_, fun other same agree => ?_, ?_⟩
  · obtain ⟨faulty, named, last⟩ := blames failing fault failed
    exact ⟨faulty, named, (records ⟨named, failing⟩).mp (List.mem_of_getLast? last)⟩
  · refine alike other same fun inclusion member => ?_
    obtain ⟨names, placed⟩ := (records inclusion).mp member
    rw [placed]
    exact agree inclusion.named names
  · intro stored config text parsed chosen held reads sets loaded
    exact baseFor_load held reads sets loaded path

/-- A configuration and a document in directories of their own. The document includes a text
with an inclusion in a key, and from there it goes on through a directory below the base. -/
def scattered : Files := fun path =>
  let directive := fun named => '@' :: (Directive.scheme ++ named)
  if path = ['c', '/', 'o'] then .ok "[interpolation]\nbase_dir = \"i\"\n".toList
  else if path = ['s', '/', 't'] then .ok "\"@file://a\"".toList
  else if path = ['c', '/', 'i', '/', 'a'] then .ok ('@' :: (['M', '['] ++ directive ['b'] ++ [']']))
  else if path = ['c', '/', 'i', '/', 'b'] then .ok (directive ['x', '/', 'k'])
  else if path = ['c', '/', 'i', '/', 'x', '/', 'k'] then .ok (directive ['d'])
  else .error .notFound

theorem read_scattered (named : Text) (plain : named ∈ [['a'], ['b'], ['x', '/', 'k'], ['d']]) :
    Directive.read (Directive.scheme ++ named) = ⟨.inclusion named, Directive.scheme ++ named, []⟩ := by
  simp only [List.mem_cons, List.not_mem_nil, or_false] at plain
  rcases plain with rfl | rfl | rfl | rfl <;> decide

/-- From the one string of the document four paths are come upon, one behind the other. -/
theorem comesUpon_scattered :
    ∀ named ∈ [['a'], ['b'], ['x', '/', 'k'], ['d']],
      ComesUpon scattered { baseDir := some ['c', '/', 'i'] } ('@' :: (Directive.scheme ++ ['a'])) named := by
  let located : Interpolation.Options := { baseDir := some ['c', '/', 'i'] }
  let keyed := '@' :: (['M', '['] ++ '@' :: (Directive.scheme ++ ['b']) ++ [']'])
  have lookup : Directive.read (['M', '['] ++ '@' :: (Directive.scheme ++ ['b']) ++ [']']) =
      ⟨.expression 1 (.lookup ['M'] [⟨0, '@' :: (Directive.scheme ++ ['b'])⟩]),
        ['M', '['] ++ '@' :: (Directive.scheme ++ ['b']) ++ [']'], []⟩ := by decide
  have here {named : Text} {used : Nat} {origin : Origin}
      (plain : named ∈ [['a'], ['b'], ['x', '/', 'k'], ['d']]) (room : used < 64) :
      AsksBelow scattered located named (.text used origin 0 ('@' :: (Directive.scheme ++ named))) :=
    ⟨_, .refl, .directive (read_scattered named plain) room⟩
  have viaA {named : Text} (asks : ∀ origin, AsksBelow scattered located named (.text 1 origin 0 keyed)) :
      ComesUpon scattered located ('@' :: (Directive.scheme ++ ['a'])) named := by
    have held : scattered (located.locate ['a']) = .ok keyed := rfl
    exact (asks _).caller (.included (read_scattered ['a'] (by decide)) (by decide) held)
  have viaKey {named : Text} {origin : Origin}
      (asks : ∀ origin, AsksBelow scattered located named
        (.text 1 origin 0 ('@' :: (Directive.scheme ++ ['b'])))) :
      AsksBelow scattered located named (.text 1 origin 0 keyed) := by
    have intoKey (start : Nat) := @Calls.key scattered located 1 start
      ⟨0, '@' :: (Directive.scheme ++ ['b'])⟩ [] rfl
    exact ((asks _).caller (intoKey _)).caller (.keys lookup rfl)
  have viaB {named : Text} {origin : Origin}
      (asks : ∀ origin, AsksBelow scattered located named
        (.text 2 origin 0 ('@' :: (Directive.scheme ++ ['x', '/', 'k'])))) :
      AsksBelow scattered located named (.text 1 origin 0 ('@' :: (Directive.scheme ++ ['b']))) := by
    have held : scattered (located.locate ['b']) = .ok ('@' :: (Directive.scheme ++ ['x', '/', 'k'])) := rfl
    exact (asks _).caller (.included (read_scattered ['b'] (by decide)) (by decide) held)
  have viaK {named : Text} {origin : Origin}
      (asks : ∀ origin, AsksBelow scattered located named
        (.text 3 origin 0 ('@' :: (Directive.scheme ++ ['d'])))) :
      AsksBelow scattered located named (.text 2 origin 0 ('@' :: (Directive.scheme ++ ['x', '/', 'k']))) := by
    have held : scattered (located.locate ['x', '/', 'k']) = .ok ('@' :: (Directive.scheme ++ ['d'])) := rfl
    exact (asks _).caller (.included (read_scattered ['x', '/', 'k'] (by decide)) (by decide) held)
  simp only [List.forall_mem_cons, List.not_mem_nil, false_implies, implies_true, and_true]
  exact ⟨here (by decide) (by decide), viaA fun _ => viaKey fun _ => here (by decide) (by decide),
    viaA fun _ => viaKey fun _ => viaB fun _ => here (by decide) (by decide),
    viaA fun _ => viaKey fun _ => viaB fun _ => viaK fun _ => here (by decide) (by decide)⟩

/-- The configured base directory is seen from the configuration, and all four paths are read
from there; without it the first is read from the directory of the document. -/
theorem processFile_inclusions_scattered :
    let reader := Json.parse Json.documentDepth
    let options : Options := { interpolation := { baseDir := some ['c', '/', 'i'] } }
    (Config.load Config.read scattered ['c', '/', 'o']).result = .ok options ∧
      (∀ named ∈ [['a'], ['b'], ['x', '/', 'k'], ['d']],
        ⟨named, ['c', '/', 'i', '/'] ++ named⟩ ∈
          (processFile reader scattered options ['s', '/', 't']).inclusions) ∧
      ⟨['a'], ['s', '/', 'a']⟩ ∈ (processFile reader scattered {} ['s', '/', 't']).inclusions := by
  intro reader options
  have loaded : (Config.load Config.read scattered ['c', '/', 'o']).result =
      .ok { interpolation := { baseDir := some ['c', '/', 'i'] } } := by cbv
  have sets : Config.read "[interpolation]\nbase_dir = \"i\"\n".toList =
      .ok { interpolation := { baseDir := some ['i'] } } := by cbv
  have accepted : Json.parse Json.documentDepth (source "\"@file://a\"".toList) =
      .ok (.string ('@' :: (Directive.scheme ++ ['a']))) := by cbv
  have names (options : Options) {named : Text}
      (upon : ComesUpon scattered (options.forPath ['s', '/', 't']).interpolation
        ('@' :: (Directive.scheme ++ ['a'])) named) :
      Names reader scattered options ['s', '/', 't'] named :=
    ⟨_, _, _, rfl, accepted, ⟨[], [], rfl, List.forall_mem_nil _⟩, upon⟩
  obtain ⟨records, -, -, configured⟩ :=
    processFile_inclusions reader Config.read scattered options ['s', '/', 't']
  have base := configured scattered ['c', '/', 'o'] _ _ ['i'] rfl sets rfl loaded
  have alone := (processFile_inclusions reader Config.read scattered {} ['s', '/', 't']).1
  refine ⟨loaded, fun named member => (records _).mpr ⟨names options (comesUpon_scattered named member), ?_⟩, ?_⟩
  · rw [base]
    simp only [List.mem_cons, List.not_mem_nil, or_false] at member
    rcases member with rfl | rfl | rfl | rfl <;> decide
  · have upon : ComesUpon scattered { baseDir := some ['s'] } ('@' :: (Directive.scheme ++ ['a'])) ['a'] :=
      ⟨_, .refl, .directive (read_scattered ['a'] (by decide)) (by decide)⟩
    exact (alone _).mpr ⟨names {} upon, by decide⟩

end Document

end StackTemplate
