import Mathlib
import StackTemplate.Document

/-! A document is processed one string after the other. Whether it goes through
is decided by its strings alone, each interpolated as if nothing stood around it,
and the first that fails ends the whole. What comes out is the document with its
strings replaced, but for the two places where a key has a meaning of its own. -/
namespace StackTemplate

namespace Json.Value

mutual

/-- The strings of a value in the order of the document. Keys are not among them. -/
def strings : Value → List Text
  | string text => [text]
  | array items => itemStrings items
  | object entries => entryStrings entries
  | null => []
  | boolean _ => []
  | number _ => []

/-- The strings of several values, one value after the other. -/
def itemStrings : List Value → List Text
  | [] => []
  | item :: items => strings item ++ itemStrings items

/-- The strings of the values of several entries. -/
def entryStrings : List (Text × Value) → List Text
  | [] => []
  | (_, value) :: entries => strings value ++ entryStrings entries

end

end Json.Value

namespace Document
open Json (Value)

mutual

/-- The value with every string replaced by its meaning. -/
def rewrite (options : Options) (meaning : Text → Value) : Value → Value
  | .string text => meaning text
  | .array items => .array (rewriteItems options meaning items)
  | .object entries => .object (rewriteEntries options meaning entries)
  | .null => .null
  | .boolean value => .boolean value
  | .number value => .number value

/-- An array keeps its length and its order. -/
def rewriteItems (options : Options) (meaning : Text → Value) : List Value → List Value
  | [] => []
  | item :: items => rewrite options meaning item :: rewriteItems options meaning items

/-- Entries keep their keys and their order. An object of `Tags` becomes a list
and a string of `UserData` is wrapped, each if the options ask for it. -/
def rewriteEntries (options : Options) (meaning : Text → Value) :
    List (Text × Value) → List (Text × Value)
  | [] => []
  | (key, .object tags) :: entries =>
    (key, if options.tagsAsList ∧ key = "Tags".toList then .array (listTags options meaning tags)
      else .object (rewriteEntries options meaning tags)) :: rewriteEntries options meaning entries
  | (key, .string script) :: entries =>
    (key, if options.userDataBase64 ∧ key = "UserData".toList then
        .object [("Fn::Base64".toList, meaning script)]
      else meaning script) :: rewriteEntries options meaning entries
  | (key, value) :: entries =>
    (key, rewrite options meaning value) :: rewriteEntries options meaning entries

/-- One object for each tag, in their order. A tag's value is rewritten as it
would be anywhere, whatever the tag is called. -/
def listTags (options : Options) (meaning : Text → Value) : List (Text × Value) → List Value
  | [] => []
  | (name, value) :: tags =>
    .object [("Key".toList, .string name), ("Value".toList, rewrite options meaning value)] ::
      listTags options meaning tags

end

/-- The value rewritten for its place. -/
def rewriteAs (options : Options) (meaning : Text → Value) : Role → Value → Value
  | .tags, .object tags => .array (listTags options meaning tags)
  | .userData, .string script => .object [("Fn::Base64".toList, meaning script)]
  | _, value => rewrite options meaning value

theorem Role.ofKey_eq_tags {options : Options} {key : Text} :
    Role.ofKey options key = .tags ↔ options.tagsAsList ∧ key = "Tags".toList := by
  unfold Role.ofKey
  split
  · next tags => simp [tags]
  · next other =>
    simp only [other, iff_false]
    split <;> exact Role.noConfusion

theorem Role.ofKey_eq_userData {options : Options} {key : Text} :
    Role.ofKey options key = .userData ↔ options.userDataBase64 ∧ key = "UserData".toList := by
  unfold Role.ofKey
  split
  · next tags => simp [tags]
  · split
    · next script => simp [script]
    · next other =>
      simp only [other, iff_false]
      exact Role.noConfusion

/-- An entry's value is rewritten by the role of its key. -/
theorem rewriteEntries_cons (options : Options) (meaning : Text → Value) (key : Text) (value : Value)
    (entries : List (Text × Value)) :
    rewriteEntries options meaning ((key, value) :: entries) =
      (key, rewriteAs options meaning (.ofKey options key) value) ::
        rewriteEntries options meaning entries := by
  have tags := @Role.ofKey_eq_tags options key
  have script := @Role.ofKey_eq_userData options key
  cases value with
  | object inner =>
    simp only [rewriteEntries, ← tags]
    cases Role.ofKey options key <;> simp [rewriteAs, rewrite]
  | string text =>
    simp only [rewriteEntries, ← script]
    cases Role.ofKey options key <;> simp [rewriteAs, rewrite]
  | null => cases Role.ofKey options key <;> simp [rewriteEntries, rewriteAs]
  | boolean value => cases Role.ofKey options key <;> simp [rewriteEntries, rewriteAs]
  | number value => cases Role.ofKey options key <;> simp [rewriteEntries, rewriteAs]
  | array items => cases Role.ofKey options key <;> simp [rewriteEntries, rewriteAs]

/-- Each of the texts goes through, and its meaning is the encoding of what it denotes. -/
def Means (denotes : Text → Except Error Fragment) (meaning : Text → Value) (texts : List Text) : Prop :=
  ∀ text ∈ texts, ∃ fragment, denotes text = .ok fragment ∧ meaning text = fragment.encode

/-- A computation that takes texts in their order: it gives a value made of their
meanings, or the error of the first text that has one. -/
structure Follows (denotes : Text → Except Error Fragment) (texts : List Text)
    (value : (Text → Value) → α) (run : Run α) : Prop where
  ends : ∀ meaning, Means denotes meaning texts → run.result = .ok (value meaning)
  fails : ∀ before text after error, texts = before ++ text :: after →
    (∀ earlier ∈ before, ∃ fragment, denotes earlier = .ok fragment) →
    denotes text = .error error → run.result = .error error

variable {denotes : Text → Except Error Fragment}

/-- Texts that all go through have a meaning. -/
theorem exists_meaning {texts : List Text}
    (through : ∀ text ∈ texts, ∃ fragment, denotes text = .ok fragment) :
    ∃ meaning, Means denotes meaning texts := by
  refine ⟨fun text => ((denotes text).toOption.map Fragment.encode).getD .null, fun text member => ?_⟩
  obtain ⟨fragment, same⟩ := through text member
  exact ⟨fragment, same, by simp [same, Except.toOption]⟩

theorem means_append {meaning : Text → Value} {first second : List Text} :
    Means denotes meaning (first ++ second) ↔
      Means denotes meaning first ∧ Means denotes meaning second :=
  List.forall_mem_append

/-- Either every text goes through or there is a first that does not. -/
theorem through_or_first_failure (denotes : Text → Except Error Fragment) (texts : List Text) :
    (∀ text ∈ texts, ∃ fragment, denotes text = .ok fragment) ∨
    ∃ before text after error, texts = before ++ text :: after ∧
      (∀ earlier ∈ before, ∃ fragment, denotes earlier = .ok fragment) ∧
      denotes text = .error error := by
  induction texts with
  | nil => exact .inl (by simp)
  | cons text texts ih =>
    cases here : denotes text with
    | error error => exact .inr ⟨[], text, texts, error, rfl, by simp, here⟩
    | ok fragment =>
      rcases ih with through | ⟨before, failing, after, error, rfl, through, failed⟩
      · exact .inl (List.forall_mem_cons.mpr ⟨⟨fragment, here⟩, through⟩)
      · exact .inr ⟨text :: before, failing, after, error, rfl,
          List.forall_mem_cons.mpr ⟨⟨fragment, here⟩, through⟩, failed⟩

namespace Follows

variable {texts later : List Text}

/-- Nothing to interpolate. -/
theorem done (value : α) : Follows denotes [] (fun _ => value) (.done value) :=
  ⟨fun _ _ => rfl, fun before text after error whole _ _ => by simp at whole⟩

theorem map {value : (Text → Value) → α} {run : Run α} (follows : Follows denotes texts value run)
    (f : α → β) : Follows denotes texts (fun meaning => f (value meaning)) (run.map f) := by
  constructor
  · intro meaning means
    rw [Run.result_map, follows.ends meaning means]
    rfl
  · intro before text after error whole through failed
    rw [Run.result_map, follows.fails before text after error whole through failed]
    rfl

theorem after {value : (Text → Value) → α} {run : Run α} (follows : Follows denotes texts value run)
    (events : List Event) : Follows denotes texts value (run.after [] events) :=
  ⟨follows.ends, follows.fails⟩

/-- Two computations in turn take the texts of the first before those of the second. -/
theorem bind_map {value : (Text → Value) → α} {run : Run α} {value' : (Text → Value) → β} {run' : Run β}
    (follows : Follows denotes texts value run) (follows' : Follows denotes later value' run')
    (f : α → β → γ) :
    Follows denotes (texts ++ later) (fun meaning => f (value meaning) (value' meaning))
      (run.bind fun first => run'.map (f first)) := by
  constructor
  · intro meaning means
    obtain ⟨first, second⟩ := means_append.mp means
    rw [Run.result_bind, follows.ends meaning first]
    exact (follows'.map _).ends meaning second
  · intro before text after error whole through failed
    rw [Run.result_bind]
    rcases List.append_eq_append_iff.mp whole with ⟨gap, rfl, rest⟩ | ⟨gap, here, rest⟩
    · -- The failing text is one of the second computation, so the first goes through.
      obtain ⟨early, late⟩ := List.forall_mem_append.mp through
      obtain ⟨meaning, means⟩ := exists_meaning early
      rw [follows.ends meaning means]
      exact (follows'.map _).fails gap text after error rest late failed
    · cases gap with
      | nil =>
        rw [List.append_nil] at here
        obtain ⟨meaning, means⟩ := exists_meaning (here ▸ through)
        rw [follows.ends meaning means]
        exact (follows'.map _).fails [] text after error rest.symm (by simp) failed
      | cons first gap =>
        cases rest
        rw [follows.fails before text gap error here through failed]
        rfl

end Follows

variable (files : Files) (options : Options)

/-- What a text denotes when it is interpolated by itself. -/
def denotesAlone (text : Text) : Except Error Fragment :=
  (interpolate files options.interpolation text).result

private theorem follows_text (role : Role) (text : Text) :
    Follows (denotesAlone files options) [text]
      (fun meaning => rewriteAs options meaning role (.string text))
      (processText files options role text) := by
  constructor
  · intro meaning means
    obtain ⟨fragment, denoted, same⟩ := means text (by simp)
    change (interpolate files options.interpolation text).result.map _ = _
    rw [show (interpolate files options.interpolation text).result = _ from denoted]
    cases role <;> simp [rewriteAs, rewrite, same, Except.map, Fragment.tagged]
  · intro before other after error whole _ failed
    obtain ⟨rfl, rfl, rfl⟩ : before = [] ∧ other = text ∧ after = [] := by
      cases before with
      | nil => simpa [eq_comm] using whole
      | cons first before => simp at whole
    change (interpolate files options.interpolation other).result.map _ = _
    rw [show (interpolate files options.interpolation other).result = _ from failed]
    rfl

mutual

/-- A value of any role takes its strings in the order of the document. -/
theorem follows_process (role : Role) (value : Value) :
    Follows (denotesAlone files options) value.strings
      (fun meaning => rewriteAs options meaning role value) (process files options role value) := by
  cases value with
  | string text => exact follows_text files options role text
  | null => cases role <;> exact .done Value.null
  | boolean value => cases role <;> exact .done (Value.boolean value)
  | number value => cases role <;> exact .done (Value.number value)
  | array items =>
    have items := (follows_processItems items).map Value.array
    cases role <;> exact items
  | object entries =>
    have plain := (follows_processEntries entries).map Value.object
    cases role with
    | plain => exact plain
    | userData => exact plain
    | tags => exact ((follows_processTags entries).map Value.array).after _

theorem follows_processItems (items : List Value) :
    Follows (denotesAlone files options) (Value.itemStrings items)
      (fun meaning => rewriteItems options meaning items) (processItems files options items) := by
  cases items with
  | nil => exact .done []
  | cons item items =>
    exact (follows_process .plain item).bind_map (follows_processItems items) (· :: ·)

theorem follows_processEntries (entries : List (Text × Value)) :
    Follows (denotesAlone files options) (Value.entryStrings entries)
      (fun meaning => rewriteEntries options meaning entries) (processEntries files options entries) := by
  cases entries with
  | nil => exact .done []
  | cons entry entries =>
    obtain ⟨key, value⟩ := entry
    simp only [rewriteEntries_cons]
    exact (follows_process (.ofKey options key) value).bind_map (follows_processEntries entries)
      fun value entries => (key, value) :: entries

theorem follows_processTags (tags : List (Text × Value)) :
    Follows (denotesAlone files options) (Value.entryStrings tags)
      (fun meaning => listTags options meaning tags) (processTags files options tags) := by
  cases tags with
  | nil => exact .done []
  | cons entry tags =>
    obtain ⟨name, value⟩ := entry
    exact (follows_process .plain value).bind_map (follows_processTags tags)
      fun value tags => tag name value :: tags

end

/-- A document goes through exactly when each of its strings does, interpolated by
itself and with all inclusions of the options still to use. It is then the document
with every string replaced by the encoding of what it denotes; otherwise its error
is the one of the first string that fails. -/
theorem process_stringwise (value : Value) :
    let alone := fun text => (interpolate files options.interpolation text).result
    let whole := (process files options .plain value).result
    ((∃ done, whole = .ok done) ↔ ∀ text ∈ value.strings, ∃ fragment, alone text = .ok fragment) ∧
    (∀ meaning, Means alone meaning value.strings → whole = .ok (rewrite options meaning value)) ∧
    ∀ before text after error, value.strings = before ++ text :: after →
      (∀ earlier ∈ before, ∃ fragment, alone earlier = .ok fragment) →
      alone text = .error error → whole = .error error := by
  intro alone whole
  obtain ⟨ends, fails⟩ := follows_process files options .plain value
  refine ⟨⟨fun ⟨done, ended⟩ => ?_, fun through => ?_⟩, ends, fails⟩
  · rcases through_or_first_failure alone value.strings with
      through | ⟨before, text, after, error, cut, through, failed⟩
    · exact through
    · cases ended.symm.trans (fails before text after error cut through failed)
  · obtain ⟨meaning, means⟩ := exists_meaning through
    exact ⟨_, ends meaning means⟩

/-- Two strings that each use the only inclusion allowed, one of them a tag that is
called like a script; and a list whose second string fails before the third. -/
theorem process_stringwise_tags_and_script :
    let files : Files := fun path => if path = ['f'] then .ok ['@', 'A'] else .error .notFound
    let options : Options := { interpolation := { includeLimit := 1 } }
    let file := Value.string ('@' :: Directive.scheme ++ ['f'])
    let found := Value.object [("Ref".toList, .string ['A'])]
    (process files options .plain (.object [("Tags".toList, .object [("UserData".toList, file)]),
        ("UserData".toList, file), ("Size".toList, .number (.integer 1))])).result =
      .ok (.object [
        ("Tags".toList, .array [
          .object [("Key".toList, .string "UserData".toList), ("Value".toList, found)]]),
        ("UserData".toList, .object [("Fn::Base64".toList, found)]),
        ("Size".toList, .number (.integer 1))]) ∧
    (process files options .plain (.array [file, .string ['@', '{'],
        .string ('@' :: Directive.scheme ++ ['g'])])).result = .error (.unterminated .brace 0) := by
  intro files options file found
  have included : (interpolate files options.interpolation ('@' :: Directive.scheme ++ ['f'])).result =
      .ok (.reference ['A']) := by cbv
  constructor
  · refine (process_stringwise files options _).2.1 (fun _ => found) fun text member => ?_
    obtain rfl : text = '@' :: Directive.scheme ++ ['f'] := by
      simpa [Value.strings, Value.entryStrings, file] using member
    exact ⟨_, included, rfl⟩
  · refine (process_stringwise files options _).2.2 [_] ['@', '{'] [_] _ rfl ?_ (by cbv)
    exact List.forall_mem_singleton.mpr ⟨_, included⟩

end Document

end StackTemplate
