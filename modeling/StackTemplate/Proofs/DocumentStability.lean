import StackTemplate.Proofs.DocumentStrings
import StackTemplate.Proofs.InclusionSubstitution

/-! Processing a processed document changes nothing. The objects that processing
makes have keys without a meaning of their own, no object is left under `Tags` and
no string under `UserData`, so a second pass finds nothing to rewrite; and text
without an `@` denotes itself. -/
namespace StackTemplate

namespace Json.Value

/-- Values are proved about with the members of an array or object already settled. -/
theorem members_induction {motive : Value → Prop} (null : motive .null)
    (boolean : ∀ value, motive (.boolean value)) (number : ∀ value, motive (.number value))
    (string : ∀ text, motive (.string text))
    (array : ∀ items, (∀ item ∈ items, motive item) → motive (.array items))
    (object : ∀ entries, (∀ entry ∈ entries, motive entry.2) → motive (.object entries))
    (value : Value) : motive value :=
  @Value.rec motive (fun items => ∀ item ∈ items, motive item)
    (fun entries => ∀ entry ∈ entries, motive entry.2) (fun entry => motive entry.2)
    null boolean number string array object
    (fun _ member => absurd member List.not_mem_nil)
    (fun _ _ here later => List.forall_mem_cons.mpr ⟨here, later⟩)
    (fun _ member => absurd member List.not_mem_nil)
    (fun _ _ here later => List.forall_mem_cons.mpr ⟨here, later⟩)
    (fun _ _ inner => inner) value

mutual

/-- The entries of every object in a value, at any depth. -/
def entries : Value → List (Text × Value)
  | object own => ownEntries own
  | array items => itemEntries items
  | null => []
  | boolean _ => []
  | number _ => []
  | string _ => []

/-- The entries of every object in several values. -/
def itemEntries : List Value → List (Text × Value)
  | [] => []
  | item :: items => entries item ++ itemEntries items

/-- The given entries, and those of every object in their values. -/
def ownEntries : List (Text × Value) → List (Text × Value)
  | [] => []
  | (key, value) :: more => (key, value) :: (entries value ++ ownEntries more)

end

theorem itemStrings_eq_flatMap (items : List Value) : itemStrings items = items.flatMap strings := by
  induction items with
  | nil => rfl
  | cons item items ih => rw [itemStrings, ih, List.flatMap_cons]

theorem entryStrings_eq_flatMap (own : List (Text × Value)) :
    entryStrings own = own.flatMap fun entry => strings entry.2 := by
  induction own with
  | nil => rfl
  | cons entry own ih => rw [entryStrings, ih, List.flatMap_cons]

theorem itemEntries_eq_flatMap (items : List Value) : itemEntries items = items.flatMap entries := by
  induction items with
  | nil => rfl
  | cons item items ih => rw [itemEntries, ih, List.flatMap_cons]

theorem ownEntries_eq_flatMap (own : List (Text × Value)) :
    ownEntries own = own.flatMap fun entry => entry :: entries entry.2 := by
  induction own with
  | nil => rfl
  | cons entry own ih => rw [ownEntries, ih, List.flatMap_cons, List.cons_append]

/-- An entry in an array is one in an item. -/
theorem mem_entries_array {entry : Text × Value} {items : List Value} :
    entry ∈ entries (array items) ↔ ∃ item ∈ items, entry ∈ entries item := by
  rw [entries, itemEntries_eq_flatMap, List.mem_flatMap]

/-- An entry in an object is its own or one in the value of its own. -/
theorem mem_entries_object {entry : Text × Value} {own : List (Text × Value)} :
    entry ∈ entries (object own) ↔ ∃ outer ∈ own, entry = outer ∨ entry ∈ entries outer.2 := by
  simp only [entries, ownEntries_eq_flatMap, List.mem_flatMap, List.mem_cons]

/-- A string in an array is one in an item. -/
theorem mem_strings_array {text : Text} {items : List Value} :
    text ∈ strings (array items) ↔ ∃ item ∈ items, text ∈ strings item := by
  rw [strings, itemStrings_eq_flatMap, List.mem_flatMap]

/-- A string in an object is one in the value of an entry. -/
theorem mem_strings_object {text : Text} {own : List (Text × Value)} :
    text ∈ strings (object own) ↔ ∃ entry ∈ own, text ∈ strings entry.2 := by
  rw [strings, entryStrings_eq_flatMap, List.mem_flatMap]

/-- The strings in the value of an entry are strings of the whole. -/
theorem mem_strings_of_entry {value : Value} {entry : Text × Value} (member : entry ∈ value.entries)
    {text : Text} (inside : text ∈ entry.2.strings) : text ∈ value.strings := by
  induction value using members_induction with
  | null => cases member
  | boolean value => cases member
  | number value => cases member
  | string other => cases member
  | array items ih =>
    obtain ⟨item, inItems, deeper⟩ := mem_entries_array.mp member
    exact mem_strings_array.mpr ⟨item, inItems, ih item inItems deeper⟩
  | object own ih =>
    obtain ⟨outer, inOwn, rfl | deeper⟩ := mem_entries_object.mp member
    · exact mem_strings_object.mpr ⟨entry, inOwn, inside⟩
    · exact mem_strings_object.mpr ⟨outer, inOwn, ih outer inOwn deeper⟩

end Json.Value

namespace Document
open Json (Value)

variable {options : Options} {meaning : Text → Value}

theorem rewriteItems_eq_map (items : List Value) :
    rewriteItems options meaning items = items.map (rewrite options meaning) := by
  induction items with
  | nil => rfl
  | cons item items ih => rw [rewriteItems, ih, List.map_cons]

theorem rewriteEntries_eq_map (entries : List (Text × Value)) :
    rewriteEntries options meaning entries = entries.map fun entry =>
      (entry.1, rewriteAs options meaning (.ofKey options entry.1) entry.2) := by
  induction entries with
  | nil => rfl
  | cons entry entries ih => rw [rewriteEntries_cons, ih, List.map_cons]

theorem listTags_eq_map (tags : List (Text × Value)) :
    listTags options meaning tags = tags.map fun entry =>
      tag entry.1 (rewrite options meaning entry.2) := by
  induction tags with
  | nil => rfl
  | cons entry tags ih =>
    rw [listTags, ih, List.map_cons]
    rfl

/-- An entry whose value processing leaves in its form. -/
def Settled (options : Options) (entry : Text × Value) : Prop :=
  (options.tagsAsList → entry.1 = "Tags".toList → ∀ tags, entry.2 ≠ .object tags) ∧
    (options.userDataBase64 → entry.1 = "UserData".toList → ∀ script, entry.2 ≠ .string script)

/-- A value in which every entry is settled, at any depth. -/
def SettledWithin (options : Options) (value : Value) : Prop :=
  ∀ entry ∈ value.entries, Settled options entry

theorem settledWithin_array {items : List Value} :
    SettledWithin options (.array items) ↔ ∀ item ∈ items, SettledWithin options item := by
  simp only [SettledWithin, Value.mem_entries_array]
  exact ⟨fun settled item member entry inside => settled entry ⟨item, member, inside⟩,
    fun settled entry ⟨item, member, inside⟩ => settled item member entry inside⟩

theorem settledWithin_object {own : List (Text × Value)} :
    SettledWithin options (.object own) ↔
      ∀ entry ∈ own, Settled options entry ∧ SettledWithin options entry.2 := by
  simp only [SettledWithin, Value.mem_entries_object]
  constructor
  · intro settled entry member
    exact ⟨settled entry ⟨entry, member, .inl rfl⟩,
      fun other inside => settled other ⟨entry, member, .inr inside⟩⟩
  · rintro settled entry ⟨outer, member, rfl | inside⟩
    · exact (settled entry member).1
    · exact (settled outer member).2 entry inside

theorem settledWithin_string (text : Text) : SettledWithin options (.string text) := by
  intro entry member
  cases member

/-- An entry whose key has no meaning of its own is settled. -/
theorem settled_of_key {key : Text} (other : key ≠ "Tags".toList ∧ key ≠ "UserData".toList)
    (value : Value) : Settled options (key, value) :=
  ⟨fun _ same => absurd same other.1, fun _ same => absurd same other.2⟩

theorem settledWithin_tagged {key : String} {value : Value}
    (other : key.toList ≠ "Tags".toList ∧ key.toList ≠ "UserData".toList)
    (settled : SettledWithin options value) : SettledWithin options (Fragment.tagged key value) :=
  settledWithin_object.mpr (List.forall_mem_singleton.mpr ⟨settled_of_key other value, settled⟩)

/-- An encoded fragment holds no entry that processing would rewrite. -/
theorem settledWithin_encode (fragment : Fragment) : SettledWithin options fragment.encode := by
  have strings {texts : List Text} : ∀ item ∈ texts.map Value.string, SettledWithin options item :=
    List.forall_mem_map.mpr fun text _ => settledWithin_string text
  have encoded {parts : List Fragment} (settled : ∀ part ∈ parts, SettledWithin options part.encode) :
      ∀ item ∈ parts.map Fragment.encode, SettledWithin options item :=
    List.forall_mem_map.mpr settled
  induction fragment using Fragment.members_induction with
  | literal text => exact settledWithin_string text
  | reference name => exact settledWithin_tagged (by decide) (settledWithin_string name)
  | attributeOf name path =>
    exact settledWithin_tagged (by decide) (settledWithin_array.mpr (@strings [name, path]))
  | lookup map keys ih =>
    rw [Fragment.encode, Fragment.encodeAll_eq_map]
    refine settledWithin_tagged (by decide) (settledWithin_array.mpr ?_)
    exact List.forall_mem_cons.mpr ⟨settledWithin_string map, encoded ih⟩
  | join parts ih =>
    rw [Fragment.encode, Fragment.encodeAll_eq_map]
    refine settledWithin_tagged (by decide) (settledWithin_array.mpr ?_)
    exact List.forall_mem_cons.mpr ⟨settledWithin_string [],
      List.forall_mem_singleton.mpr (settledWithin_array.mpr (encoded ih))⟩

theorem rewriteAs_of_settled {key : Text} {value : Value} (settled : Settled options (key, value)) :
    rewriteAs options meaning (.ofKey options key) value = rewrite options meaning value := by
  cases role : Role.ofKey options key with
  | plain => rfl
  | tags =>
    obtain ⟨listed, isTags⟩ := Role.ofKey_eq_tags.mp role
    cases value with
    | object tags => exact absurd rfl (settled.1 listed isTags tags)
    | _ => rfl
  | userData =>
    obtain ⟨wrapped, isScript⟩ := Role.ofKey_eq_userData.mp role
    cases value with
    | string script => exact absurd rfl (settled.2 wrapped isScript script)
    | _ => rfl

/-- Where every entry is settled and every string means itself, nothing changes. -/
theorem rewrite_settled {value : Value} (settled : SettledWithin options value) :
    rewrite options .string value = value := by
  induction value using Value.members_induction with
  | null => rfl
  | boolean value => rfl
  | number value => rfl
  | string text => rfl
  | array items ih =>
    have within := settledWithin_array.mp settled
    have same : items.map (rewrite options .string) = items :=
      (List.map_congr_left fun item member => ih item member (within item member)).trans
        (List.map_id' items)
    rw [rewrite, rewriteItems_eq_map, same]
  | object own ih =>
    have within := settledWithin_object.mp settled
    have same : (own.map fun entry =>
        (entry.1, rewriteAs options .string (.ofKey options entry.1) entry.2)) = own := by
      refine (List.map_congr_left fun entry member => ?_).trans (List.map_id' own)
      obtain ⟨here, inner⟩ := within entry member
      rw [rewriteAs_of_settled here, ih entry member inner]
    rw [rewrite, rewriteEntries_eq_map, same]

/-- What an entry becomes is settled, unless it holds a string of `Tags` that means
an object. -/
theorem settled_rewriteAs {key : Text} {value : Value}
    (tags : key = "Tags".toList → ∀ text, value = .string text → ∀ own, meaning text ≠ .object own) :
    Settled options (key, rewriteAs options meaning (.ofKey options key) value) := by
  constructor
  · intro listed isTags own
    rw [Role.ofKey_eq_tags.mpr ⟨listed, isTags⟩]
    cases value with
    | string text => exact tags isTags text rfl own
    | _ => simp [rewriteAs, rewrite]
  · intro wrapped isScript script
    rw [Role.ofKey_eq_userData.mpr ⟨wrapped, isScript⟩]
    cases value <;> simp [rewriteAs, rewrite]

/-- Rewriting a value for any place leaves no entry to rewrite, if the meanings of
its strings hold none and no string of `Tags` means an object. -/
theorem settledWithin_rewriteAs {value : Value} (role : Role)
    (strings : ∀ text ∈ value.strings, SettledWithin options (meaning text))
    (tags : ∀ text, ("Tags".toList, .string text) ∈ value.entries → ∀ own, meaning text ≠ .object own) :
    SettledWithin options (rewriteAs options meaning role value) := by
  have scalar {value : Value} (none : value.entries = []) : SettledWithin options value := by
    intro entry member
    rw [none] at member
    cases member
  induction value using Value.members_induction generalizing role with
  | null => cases role <;> exact scalar rfl
  | boolean value => cases role <;> exact scalar rfl
  | number value => cases role <;> exact scalar rfl
  | string text =>
    have here := strings text (by simp [Value.strings])
    cases role with
    | userData => exact @settledWithin_tagged _ "Fn::Base64" _ (by decide) here
    | plain => exact here
    | tags => exact here
  | array items ih =>
    have within : SettledWithin options (.array (items.map (rewrite options meaning))) := by
      refine settledWithin_array.mpr (List.forall_mem_map.mpr fun item member => ?_)
      exact ih item member .plain
        (fun text inside => strings text (Value.mem_strings_array.mpr ⟨item, member, inside⟩))
        fun text inside => tags text (Value.mem_entries_array.mpr ⟨item, member, inside⟩)
    rw [← rewriteItems_eq_map] at within
    cases role <;> exact within
  | object own ih =>
    have inner (entry : Text × Value) (member : entry ∈ own) (role : Role) :
        SettledWithin options (rewriteAs options meaning role entry.2) :=
      ih entry member role
        (fun text inside => strings text (Value.mem_strings_object.mpr ⟨entry, member, inside⟩))
        fun text inside => tags text (Value.mem_entries_object.mpr ⟨entry, member, .inr inside⟩)
    have entries : SettledWithin options (.object (rewriteEntries options meaning own)) := by
      rw [rewriteEntries_eq_map]
      refine settledWithin_object.mpr (List.forall_mem_map.mpr fun entry member => ⟨?_, inner entry member _⟩)
      refine settled_rewriteAs fun isTags text isText => tags text ?_
      exact Value.mem_entries_object.mpr ⟨entry, member, .inl (by rw [← isTags, ← isText])⟩
    cases role with
    | plain => exact entries
    | userData => exact entries
    | tags =>
      change SettledWithin options (.array (listTags options meaning own))
      rw [listTags_eq_map]
      refine settledWithin_array.mpr (List.forall_mem_map.mpr fun entry member => ?_)
      refine settledWithin_object.mpr (List.forall_mem_cons.mpr ⟨?_, List.forall_mem_singleton.mpr ?_⟩)
      · exact ⟨settled_of_key (by decide) _, settledWithin_string entry.1⟩
      · exact ⟨settled_of_key (by decide) _, inner entry member .plain⟩

end Document

open Fragment in
/-- Text without an `@` denotes itself, and no file is read for it. -/
theorem interpolate_plain (files : Files) (options : Interpolation.Options) {text : Text}
    (plain : '@' ∉ text) : (interpolate files options text).result = .ok (.literal text) := by
  have scanned := @Interpolation.scan_plain_append files options 0 0 (.start 0) text plain []
  have listed : collapse (text.map (fun c => .literal [c]) ++ []) = .literal text := by
    have word : letters [.literal text] = text.map (fun c => .literal [c]) ++ [] := rfl
    rw [← word, collapse_letters]
    cases text <;> rfl
  rw [List.append_nil, Interpolation.scan_nil] at scanned
  rw [interpolate_eq_map_collapse, scanned]
  exact congrArg Except.ok listed

namespace Document
open Json (Value)

/-- Processing a processed document changes nothing, whatever files there are by
then, if nothing is left in it to interpolate and no string with an `@` stood
under `Tags`. -/
theorem process_again (files later : Files) (options : Options) {value done : Value}
    (processed : (process files options .plain value).result = .ok done)
    (plain : ∀ text ∈ done.strings, '@' ∉ text)
    (tags : ∀ text, ("Tags".toList, .string text) ∈ value.entries → '@' ∉ text) :
    (process later options .plain done).result = .ok done := by
  have first := follows_process files options .plain value
  have second := follows_process later options .plain done
  obtain ⟨meaning, means, rfl⟩ : ∃ meaning, Means (denotesAlone files options) meaning value.strings ∧
      rewrite options meaning value = done := by
    rcases through_or_first_failure (denotesAlone files options) value.strings with
      through | ⟨before, text, after, error, cut, through, failed⟩
    · obtain ⟨meaning, means⟩ := exists_meaning through
      cases processed.symm.trans (first.ends meaning means)
      exact ⟨meaning, means, rfl⟩
    · cases processed.symm.trans (first.fails before text after error cut through failed)
  have settled : SettledWithin options (rewrite options meaning value) := by
    refine settledWithin_rewriteAs .plain (fun text member => ?_) fun text member own => ?_
    · obtain ⟨fragment, _, same⟩ := means text member
      rw [same]
      exact settledWithin_encode fragment
    · -- A string of `Tags` denotes itself, so it means a string.
      obtain ⟨fragment, denoted, same⟩ :=
        means text (Value.mem_strings_of_entry member (by simp [Value.strings]))
      cases denoted.symm.trans (interpolate_plain files options.interpolation (tags text member))
      rw [same]
      exact Value.noConfusion
  have again : Means (denotesAlone later options) .string (rewrite options meaning value).strings :=
    fun text member => ⟨_, interpolate_plain later options.interpolation (plain text member), rfl⟩
  rw [second.ends .string again]
  exact congrArg Except.ok (rewrite_settled settled)

/-- Tags within tags and a script, both with an expression, the script's from a file
that is gone by the second time. -/
theorem process_again_tags_and_script :
    let files : Files := fun path => if path = ['f'] then .ok ['@', 'A'] else .error .notFound
    let file := '@' :: Directive.scheme ++ ['f']
    let value := Value.object [
      ("Tags".toList, .object [("Tags".toList, .object [("a".toList, .string file)])]),
      ("UserData".toList, .string file)]
    ∃ done, (process files {} .plain value).result = .ok done ∧
      (process (fun _ => .error .notFound) {} .plain done).result = .ok done := by
  intro files file value
  have included : (interpolate files {} file).result = .ok (.reference ['A']) := by cbv
  have means : Means (denotesAlone files {}) (fun _ => (Fragment.reference ['A']).encode)
      value.strings := by
    intro text member
    obtain rfl : text = file := by
      simpa [value, Value.strings, Value.entryStrings] using member
    exact ⟨_, included, rfl⟩
  have ran := (follows_process files {} .plain value).ends _ means
  refine ⟨_, ran, process_again files _ {} ran ?_ ?_⟩
  · decide
  · simp [value, Value.entries, Value.ownEntries]

end Document

end StackTemplate
