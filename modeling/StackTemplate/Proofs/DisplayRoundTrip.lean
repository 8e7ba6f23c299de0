import StackTemplate.Proofs.ExpressionGrammar
import StackTemplate.Proofs.FlatFragments
import StackTemplate.Proofs.ScanSteps

/-! Interpolating the source text of a fragment gives the fragment back. Reading
looks for closers, cuts at commas and trims, each on its own; the texts that are
written keep all three apart, at every depth and whatever text follows. -/
namespace StackTemplate

namespace Directive

/-- A text that can be the path of a delimited attribute. -/
def IsPath (path : Text) : Prop :=
  path ≠ [] ∧ (∀ c ∈ path.getLast?, Text.isBlank c = false) ∧ ∀ c ∈ path, c ∉ ['[', ']', '{', '}']

instance (path : Text) : Decidable (IsPath path) :=
  decidable_of_iff (path ≠ [] ∧ path.getLast?.all (!Text.isBlank ·) = true ∧
    path.all (fun c => decide (c ∉ ['[', ']', '{', '}'])) = true) (by
    simp only [IsPath, Option.all_eq_true, Bool.not_eq_true', Option.mem_def, List.all_eq_true,
      decide_eq_true_eq])

end Directive

namespace Fragment
open Directive Interpolation

/-- Characters that a key cannot hold as text. -/
def separators : List Char := ['[', ']', '{', '}', ',']

/-- Fragments that can be written as a key. Text that holds an `@` has to begin
with one to be scanned at all. A join, once flattened, begins with an expression
or an `@` and does not end in a blank. -/
def FitsKey : Fragment → Prop
  | literal text =>
    text ≠ [] ∧ Text.Tight text ∧ (∀ c ∈ text, c ∉ separators) ∧ ('@' ∈ text → text.head? = some '@')
  | join parts =>
    let word := letters (spreadAll parts)
    (∃ first ∈ word.head?, first.isLiteral = true → first = literal ['@']) ∧
    (∀ c, word.getLast? = some (literal [c]) → Text.isBlank c = false) ∧
    ∀ c, literal [c] ∈ word → c ∉ separators
  | _ => True

/-- Fragments made by the constructors of references, attributes, lookups and
joins, with names and paths that can be read and keys that can be written. -/
inductive Canonical : Fragment → Prop where
  | literal (text : Text) : Canonical (literal text)
  | reference {name : Text} (named : IsName name) : Canonical (reference name)
  | attributeOf {name path : Text} (named : IsName name) (led : IsPath path) :
      Canonical (attributeOf name path)
  | byConvention {name : Text} {key : Fragment} (named : IsName name) (canonical : Canonical key)
      (fits : FitsKey key) : Canonical (byConvention name key)
  | explicit {map : Text} {keys : List Fragment} (named : IsName map) (several : 2 ≤ keys.length)
      (canonical : ∀ key ∈ keys, Canonical key) (fits : ∀ key ∈ keys, FitsKey key) :
      Canonical (lookup map keys)
  | collapse {parts : List Fragment} (canonical : ∀ part ∈ parts, Canonical part) :
      Canonical (collapse parts)

/-- The text is scanned as the word, whatever follows it, and no file is read. -/
def Reads (files : Files) (options : Options) (text : Text) (word : List Fragment) : Prop :=
  ∀ used origin position rest, ∃ position' told,
    scan files options used origin position (text ++ rest) =
      ((scan files options used origin position' rest).map (word ++ ·)).after [] told

/-- A word and the text that its letters are written as. -/
inductive Renders (files : Files) (options : Options) : List Fragment → Text → Prop where
  | nil : Renders files options [] []
  | character {word : List Fragment} {text : Text} (c : Char) (later : Renders files options word text) :
      Renders files options (literal [c] :: word) (escape [c] ++ text)
  | expression {letter : Fragment} {body text : Text} {word : List Fragment}
      (proper : letter.isLiteral = false) (nested : Nested 1 body)
      (reads : Reads files options (delimited body) [letter]) (later : Renders files options word text) :
      Renders files options (letter :: word) (delimited body ++ text)

variable {files : Files} {options : Options}

theorem Reads.append {first second : Text} {word after : List Fragment}
    (reads : Reads files options first word) (later : Reads files options second after) :
    Reads files options (first ++ second) (word ++ after) := by
  intro used origin position rest
  obtain ⟨middle, early, ran⟩ := reads used origin position (second ++ rest)
  obtain ⟨position', late, ended⟩ := later used origin middle rest
  refine ⟨position', early ++ late, ?_⟩
  rw [List.append_assoc, ran, ended, Run.map_after, Run.map_map, Run.after_after]
  simp [Function.comp_def]

theorem reads_character (c : Char) : Reads files options (escape [c]) [literal [c]] := by
  intro used origin position rest
  by_cases isAt : c = '@'
  · subst isAt
    have reading : read ('@' :: rest) = ⟨.escape, ['@'], rest⟩ := rfl
    have step := @scan_yields files options used position origin _ _ _ _ _ reading rfl
    have noKeys : scanKeys files options used (position + Directive.escape.keysStart)
        Directive.escape.keys = .done [] := scanKeys_nil
    rw [noKeys] at step
    exact ⟨_, _, step⟩
  · refine ⟨position + c.utf8Size, [], ?_⟩
    simp [escape, isAt, scan_text isAt]

/-- A delimited expression is read, given that its keys are. -/
theorem reads_delimited {body taken : Text} {shape : Shape} {found : List Fragment}
    (balanced : Balanced .brace body) (tight : Text.Tight body)
    (expression : findExpression .delimited body = .expression shape taken [])
    (keys : ∀ used base, ∃ told, scanKeys files options used base shape.keys = ⟨[], told, .ok found⟩) :
    Reads files options (delimited body) [shape.build found] := by
  intro used origin position rest
  obtain ⟨told, keysRan⟩ := keys used (position + (2 + shape.keysOffset))
  have reading := read_expression balanced tight expression rest
  have step := @scan_yields files options used position origin _ _ _ _ _ reading rfl
  rw [Directive.keys, Directive.keysStart, keysRan] at step
  have whole : delimited body ++ rest = '@' :: ('{' :: body ++ '}' :: rest) := by simp [delimited]
  exact ⟨_, _, whole ▸ step⟩

theorem Renders.append {word after : List Fragment} {first second : Text}
    (renders : Renders files options word first) (later : Renders files options after second) :
    Renders files options (word ++ after) (first ++ second) := by
  induction renders with
  | nil => exact later
  | character c _ ih =>
    rw [List.append_assoc]
    exact .character c ih
  | expression proper nested reads _ ih =>
    rw [List.append_assoc]
    exact .expression proper nested reads ih

theorem Renders.reads {word : List Fragment} {text : Text} (renders : Renders files options word text) :
    Reads files options text word := by
  induction renders with
  | nil => exact fun used origin position rest => ⟨position, [], by simp⟩
  | character c _ ih => exact (reads_character c).append ih
  | expression proper nested reads _ ih => exact reads.append ih

/-- A delimited body that is one expression is written as that expression. -/
theorem renders_delimited {body taken : Text} {shape : Shape} {found : List Fragment}
    (nested : Nested 1 body) (tight : Text.Tight body)
    (expression : findExpression .delimited body = .expression shape taken [])
    (keys : ∀ used base, ∃ told, scanKeys files options used base shape.keys = ⟨[], told, .ok found⟩) :
    Renders files options [shape.build found] (delimited body) := by
  have reads := reads_delimited (nested.balanced .brace) tight expression keys
  have written := Renders.expression (shape.build_cases found).1 nested reads .nil
  rwa [List.append_nil] at written

theorem renders_escape (text : Text) : Renders files options (letters [literal text]) (escape text) := by
  induction text with
  | nil => exact .nil
  | cons c text ih =>
    rw [escape_cons]
    exact .character c ih

theorem nested_sign : Nested 0 ['@'] :=
  .of_free (by simp) (by simp)

theorem nested_delimited {body : Text} (nested : Nested 1 body) : Nested 0 (delimited body) := by
  have outer : Nested 0 ('{' :: body ++ ['}']) := nested.wrap .brace
  exact nested_sign.append outer

theorem mem_escape {c : Char} {text : Text} (member : c ∈ escape text) : c ∈ text := by
  obtain ⟨d, inside, shown⟩ := List.mem_flatMap.mp member
  by_cases isAt : d = '@'
  · simp_all
  · simp_all

theorem nested_escape {text : Text} (free : ∀ c ∈ text, c ∉ separators) : Nested 0 (escape text) := by
  refine .of_free (fun c member delimits => ?_) fun _ member => ?_
  · exact free c (mem_escape member) (List.mem_append_left [','] delimits)
  · exact free ',' (mem_escape member) (by decide)

/-- A word without separators is written with its delimiters closed and its commas inside them. -/
theorem Renders.nested {word : List Fragment} {text : Text} (renders : Renders files options word text)
    (free : ∀ c, literal [c] ∈ word → c ∉ separators) : Nested 0 text := by
  induction renders with
  | nil => exact .nil 0
  | character c _ ih =>
    have here : Nested 0 (escape [c]) := nested_escape (by simpa using free c (by simp))
    exact here.append (ih fun d member => free d (List.mem_cons_of_mem _ member))
  | expression proper nested reads _ ih =>
    exact (nested_delimited nested).append (ih fun d member => free d (List.mem_cons_of_mem _ member))

theorem Renders.head {word : List Fragment} {text : Text} (renders : Renders files options word text)
    (begins : ∃ first ∈ word.head?, first.isLiteral = true → first = literal ['@']) :
    text.head? = some '@' := by
  obtain ⟨first, isFirst, scanned⟩ := begins
  cases renders with
  | nil => cases isFirst
  | character c later =>
    cases isFirst
    cases scanned rfl
    rfl
  | expression proper nested reads later => rfl

theorem Renders.empty {word : List Fragment} {text : Text} (renders : Renders files options word text)
    (empty : text = []) : word = [] := by
  cases renders with
  | nil => rfl
  | character c later => by_cases isAt : c = '@' <;> simp [escape, isAt] at empty
  | expression proper nested reads later => cases empty

theorem Renders.last {word : List Fragment} {text : Text} (renders : Renders files options word text)
    (ends : ∀ c, word.getLast? = some (literal [c]) → Text.isBlank c = false) :
    ∀ c ∈ text.getLast?, Text.isBlank c = false := by
  have brace : Text.isBlank '}' = false := by decide
  induction renders with
  | nil => simp
  | @character word text c later ih =>
    intro d found
    rw [List.getLast?_append, Option.mem_def, Option.or_eq_some_iff] at found
    rcases found with after | ⟨none, own⟩
    · refine ih (fun e isLast => ends e ?_) d after
      rw [List.getLast?_cons, isLast, Option.getD_some]
    · obtain rfl := later.empty (List.getLast?_eq_none_iff.mp none)
      have same : c = d := by
        by_cases isAt : c = '@' <;> simpa [escape, isAt] using own
      exact same ▸ ends c rfl
  | @expression letter body text word proper nested reads later ih =>
    intro d found
    rw [List.getLast?_append, Option.mem_def, Option.or_eq_some_iff] at found
    rcases found with after | ⟨none, own⟩
    · refine ih (fun e isLast => ends e ?_) d after
      rw [List.getLast?_cons, isLast, Option.getD_some]
    · rw [delimited, List.getLast?_concat] at own
      cases own
      exact brace

/-- What reading needs to know about the text of a key. -/
structure KeyReads (files : Files) (options : Options) (key : Fragment) : Prop where
  full : display key ≠ []
  tight : Text.Tight (display key)
  nested : Nested 0 (display key)
  scanned : (display key).head? = some '@' → Reads files options (display key) (letters (spread key))
  verbatim : (display key).head? ≠ some '@' → flatten key = literal (display key)

theorem flatten_literal (text : Text) : flatten (literal text) = literal text := by
  cases text <;> rfl

theorem head_escape (text : Text) : (escape text).head? = text.head? := by
  cases text with
  | nil => rfl
  | cons c text => by_cases isAt : c = '@' <;> simp [escape, isAt]

theorem last_escape (text : Text) : (escape text).getLast? = text.getLast? := by
  obtain rfl | ⟨front, c, rfl⟩ := List.eq_nil_or_concat text
  · rfl
  · have shown : (escape [c]).getLast? = some c := by
      by_cases isAt : c = '@' <;> simp [escape, isAt]
    rw [List.concat_eq_append, escape_append, List.getLast?_append, shown]
    simp

theorem escape_self {text : Text} (plain : '@' ∉ text) : escape text = text := by
  induction text with
  | nil => rfl
  | cons c text ih =>
    have different : c ≠ '@' := fun same => plain (by simp [same])
    have later := ih fun member => plain (List.mem_cons_of_mem _ member)
    rw [escape_cons, later, escape_character different]
    rfl

private theorem keyReads_literal {text : Text} (fits : FitsKey (literal text)) :
    KeyReads files options (literal text) := by
  obtain ⟨full, ⟨head, last⟩, free, led⟩ := fits
  constructor
  · intro empty
    have first : (escape text).head? = none := by rw [show escape text = [] from empty]; rfl
    rw [head_escape] at first
    exact full (List.head?_eq_none_iff.mp first)
  · exact ⟨by rwa [display, head_escape], by rwa [display, last_escape]⟩
  · exact nested_escape free
  · exact fun _ => (renders_escape text).reads
  · intro unscanned
    rw [display, head_escape] at unscanned
    rw [flatten_literal, display, escape_self fun member => unscanned (led member)]

private theorem keyReads_expression {key : Fragment}
    (renders : Renders files options (letters (spread key)) (display key))
    (begins : ∃ first ∈ (letters (spread key)).head?, first.isLiteral = true → first = literal ['@'])
    (ends : ∀ c, (letters (spread key)).getLast? = some (literal [c]) → Text.isBlank c = false)
    (free : ∀ c, literal [c] ∈ letters (spread key) → c ∉ separators) :
    KeyReads files options key := by
  have head := renders.head begins
  constructor
  · intro empty
    rw [empty] at head
    cases head
  · refine ⟨fun c first => ?_, renders.last ends⟩
    cases head.symm.trans first
    decide
  · exact renders.nested free
  · exact fun _ => renders.reads
  · exact fun unscanned => absurd head unscanned

/-- A fragment that fits as a key can be read as one. -/
theorem FitsKey.reads {key : Fragment} (fits : FitsKey key)
    (renders : Renders files options (letters (spread key)) (display key)) :
    KeyReads files options key := by
  cases key with
  | literal text => exact keyReads_literal fits
  | join parts => exact keyReads_expression renders fits.1 fits.2.1 fits.2.2
  | reference name =>
    exact keyReads_expression renders ⟨_, rfl, Bool.noConfusion⟩ (by simp [spread, letters])
      (by simp [spread, letters])
  | attributeOf name path =>
    exact keyReads_expression renders ⟨_, rfl, Bool.noConfusion⟩ (by simp [spread, letters])
      (by simp [spread, letters])
  | lookup map keys =>
    exact keyReads_expression renders ⟨_, rfl, Bool.noConfusion⟩ (by simp [spread, letters])
      (by simp [spread, letters])

/-- Keys whose texts were read are scanned to their flat fragments. -/
theorem scanKeys_displayed {keys : List Fragment} (reads : ∀ key ∈ keys, KeyReads files options key)
    {written : List Key} (same : written.map Key.text = keys.map display) (used base : Nat) :
    ∃ told, scanKeys files options used base written = ⟨[], told, .ok (keys.map flatten)⟩ := by
  induction keys generalizing written used with
  | nil =>
    obtain rfl : written = [] := by simpa using same
    exact ⟨[], scanKeys_nil⟩
  | cons key keys ih =>
    cases written with
    | nil => cases same
    | cons first written =>
      simp only [List.map_cons, List.cons.injEq] at same
      obtain ⟨sameText, sameRest⟩ := same
      have read := reads key (by simp)
      have later := @ih fun other member => reads other (List.mem_cons_of_mem _ member)
      by_cases isAt : (display key).head? = some '@'
      · obtain ⟨position, early, ran⟩ := read.scanned isAt used (.start (base + first.offset)) 0 []
        rw [scan_nil, List.append_nil, ← sameText] at ran
        obtain ⟨late, rest⟩ := later sameRest used
        have listed : Assembly.ofFragments (letters (spread key) ++ []) = flatten key := by
          rw [List.append_nil, Assembly.ofFragments_eq_collapse, collapse_letters, flatten]
        refine ⟨early ++ [] ++ late, ?_⟩
        rw [scanKeys_scanned (by rwa [sameText]), ran]
        change ((scanKeys files options used base written).map
          (Assembly.ofFragments (letters (spread key) ++ []) :: ·)).after [] (early ++ []) = _
        rw [rest, listed]
        rfl
      · obtain ⟨told, rest⟩ := later sameRest used
        refine ⟨told, ?_⟩
        rw [scanKeys_literal (by rwa [sameText]), rest, sameText, List.map_cons, read.verbatim isAt]
        rfl

theorem nested_bracketed {name : Text} (named : Nested 0 name) {texts : List Text}
    (nested : ∀ text ∈ texts, Nested 0 text) : Nested 0 (bracketed name texts) := by
  have whole : bracketed name texts = name ++ ('[' :: [',', ' '].intercalate texts ++ [']']) := by
    simp [bracketed]
  rw [whole]
  exact named.append ((Nested.joined nested).wrap .bracket)

/-- A bracketed lookup is written so that it reads as the lookup its keys denote. -/
theorem renders_lookup {name : Text} {keys : List Fragment} (named : IsName name) (full : keys ≠ [])
    (reads : ∀ key ∈ keys, KeyReads files options key) :
    Renders files options [ofKeys name (keys.map flatten)]
      (delimited (bracketed name (keys.map display))) := by
  have nestedKeys : ∀ text ∈ keys.map display, Nested 0 text := by
    simpa using fun key member => (reads key member).nested
  have tightKeys : ∀ text ∈ keys.map display, Text.Tight text := by
    simpa using fun key member => (reads key member).tight
  have written := @splitKeys_joined (keys.map display) (by simpa using full) fun text member =>
    ⟨nestedKeys text member, tightKeys text member⟩
  have inside := Nested.joined nestedKeys
  have nested := (nested_bracketed named.nested nestedKeys).deeper
  have someText : ∀ key ∈ splitKeys ([',', ' '].intercalate (keys.map display)), key.text ≠ [] := by
    intro key member
    have shown : key.text ∈ keys.map display := written ▸ List.mem_map_of_mem member
    obtain ⟨fragment, inKeys, same⟩ := List.mem_map.mp shown
    exact same ▸ (reads fragment inKeys).full
  have found (mode : Mode) : findExpression mode (bracketed name (keys.map display)) = _ :=
    find_lookup named (inside.balanced .bracket) someText
  exact renders_delimited nested (findExpression_written (found .greedy)).tight (found .delimited)
    fun used base => scanKeys_displayed reads written used base

theorem renders_reference {name : Text} (named : IsName name) :
    Renders files options [reference name] (delimited name) := by
  have written : Written .greedy (.reference name) name := .inl (.reference (nameWord_iff.mpr named))
  exact renders_delimited named.nested.deeper written.tight (find_reference named)
    fun used base => ⟨[], scanKeys_nil⟩

theorem tight_attribute {name path : Text} (named : IsName name) (full : path ≠ [])
    (last : ∀ c ∈ path.getLast?, Text.isBlank c = false) : Text.Tight (name ++ '.' :: path) := by
  refine named.tight_append fun c isLast => last c ?_
  obtain ⟨front, d, rfl⟩ := (List.eq_nil_or_concat path).resolve_left full
  simpa [List.getLast?_cons] using isLast

private theorem renders_attribute {name path : Text} (named : IsName name) (led : IsPath path) :
    Renders files options [attributeOf name path] (delimited (name ++ '.' :: path)) := by
  obtain ⟨full, last, free⟩ := led
  have nested : Nested 1 (name ++ '.' :: path) :=
    named.nested.deeper.append (.of_free (List.forall_mem_cons.mpr ⟨by decide, free⟩) (by simp))
  exact renders_delimited nested (tight_attribute named full last)
    (find_attribute named full) fun used base => ⟨[], scanKeys_nil⟩

private theorem renders_convention {name : Text} {key : Fragment} (named : IsName name)
    (reads : KeyReads files options key) :
    Renders files options (letters (spread (byConvention name key))) (display (byConvention name key)) := by
  have shown : display (byConvention name key) = delimited (bracketed name ([key].map display)) := by
    simp [byConvention, display, conventionStem?, displayAll]
  rw [shown]
  exact @renders_lookup files options name [key] named (by simp) (by simpa using reads)

theorem conventionStem?_eq_some {map stem : Text} {keys : List Fragment}
    (follows : conventionStem? map keys = some stem) :
    ∃ key, keys = [reference stem, key] ∧ map = stem ++ mapSuffix := by
  unfold conventionStem? at follows
  split at follows
  · next name key =>
    split at follows
    · next same =>
      cases follows
      exact ⟨key, rfl, same⟩
    · cases follows
  · cases follows

/-- An explicit lookup is written so that it can be read back. It may happen to follow
the convention, and is then written by it. -/
theorem renders_explicit {map : Text} {keys : List Fragment} (named : IsName map)
    (several : 2 ≤ keys.length) (stemmed : ∀ stem, reference stem ∈ keys → IsName stem)
    (reads : ∀ key ∈ keys, KeyReads files options key) :
    Renders files options (letters (spread (lookup map keys))) (display (lookup map keys)) := by
  cases follows : conventionStem? map keys with
  | some stem =>
    obtain ⟨key, rfl, rfl⟩ := conventionStem?_eq_some follows
    exact renders_convention (stemmed stem (by simp)) (reads key (by simp))
  | none =>
    have written := renders_lookup named (by rintro rfl; cases several) reads
    have several : ofKeys map (keys.map flatten) = lookup map (keys.map flatten) := by
      match keys, several with
      | first :: second :: more, _ => rfl
    simp only [display, follows, displayAll_eq_map, spread, flattenAll_eq_map]
    rwa [several] at written

private theorem Canonical.reference_named {fragment : Fragment} (canonical : Canonical fragment)
    {name : Text} (same : fragment = .reference name) : IsName name := by
  induction canonical with
  | literal text => cases same
  | reference named =>
    cases same
    exact named
  | attributeOf named led => cases same
  | byConvention named canonical fits => cases same
  | explicit named several canonical fits => cases same
  | collapse canonical ih =>
    exact ih _ (mem_of_collapse_eq same rfl fun _ => Fragment.noConfusion) rfl

/-- Every canonical fragment is written so that it can be read back. -/
theorem Canonical.renders {fragment : Fragment} (canonical : Canonical fragment) :
    Renders files options (letters (spread fragment)) (display fragment) := by
  induction canonical with
  | literal text => exact renders_escape text
  | reference named => exact renders_reference named
  | attributeOf named led => exact renders_attribute named led
  | byConvention named canonical fits ih => exact renders_convention named (fits.reads ih)
  | explicit named several canonical fits ih =>
    exact renders_explicit named several (fun stem member => (canonical _ member).reference_named rfl)
      fun key member => (fits key member).reads (ih key member)
  | @collapse parts canonical ih =>
    rw [letters_spread_collapse, display_collapse]
    clear canonical
    induction parts with
    | nil => exact .nil
    | cons part parts later =>
      rw [spreadAll, letters_append, displayAll, List.flatten_cons]
      exact (ih part (by simp)).append (later fun other member => ih other (List.mem_cons_of_mem _ member))

/-- A canonical fragment without joins in joins is flat already. -/
theorem Canonical.flatten_flat {fragment : Fragment} (canonical : Canonical fragment)
    (flat : Flat fragment) : flatten fragment = fragment := by
  induction canonical with
  | literal text => exact flatten_literal text
  | reference named => rfl
  | attributeOf named led => rfl
  | byConvention named canonical fits ih =>
    cases flat with
    | lookup flat =>
      refine flatten_lookup (List.forall_mem_cons.mpr ⟨rfl, ?_⟩)
      simpa using ih (flat _ (by simp))
  | explicit named several canonical fits ih =>
    cases flat with
    | lookup flat => exact flatten_lookup fun key member => ih key member (flat key member)
  | collapse canonical ih => exact flatten_collapse ih flat

end Fragment

open Fragment in
/-- Interpolation undoes display. The source text of a canonical fragment denotes
the fragment, its joins flattened, under all options and without reading a file. -/
theorem interpolate_display (files : Files) (options : Interpolation.Options) {fragment : Fragment}
    (canonical : Canonical fragment) :
    let run := interpolate files options fragment.display
    run.result = .ok fragment.flatten ∧ run.inclusions = [] ∧
      (Flat fragment → run.result = .ok fragment) := by
  intro run
  have written : Renders files options (letters fragment.spread) fragment.display := canonical.renders
  obtain ⟨position, told, ran⟩ := written.reads 0 (.start 0) 0 []
  rw [Interpolation.scan_nil, List.append_nil] at ran
  have ended : run = ⟨[], told ++ [], .ok (collapse (letters fragment.spread ++ []))⟩ := by
    change interpolate files options fragment.display = _
    rw [interpolate_eq_map_collapse, ran]
    rfl
  have listed : collapse (letters fragment.spread ++ []) = fragment.flatten := by
    rw [List.append_nil, collapse_letters, flatten]
  rw [ended, listed]
  refine ⟨rfl, rfl, fun flat => ?_⟩
  rw [canonical.flatten_flat flat]

open Fragment in
/-- Text that looks like source text, beside a join with an attribute and a
lookup whose key is a join. -/
theorem interpolate_display_nested_joins :
    let key := collapse [.literal ['@', 'k'], .reference ['B']]
    let inner := collapse [.attributeOf ['A'] ['x', ',', ' ', 'y'], byConvention ['M'] key]
    (interpolate (fun _ => .error .notFound) {} (collapse [.literal ['@', '{'], inner]).display).result =
      .ok (.join [.literal ['@', '{'], .attributeOf ['A'] ['x', ',', ' ', 'y'], byConvention ['M'] key]) := by
  intro key inner
  have keyed : Canonical key :=
    .collapse (List.forall_mem_cons.mpr ⟨.literal _, by simpa using .reference (by decide)⟩)
  have fits : FitsKey key := by
    refine ⟨⟨_, rfl, fun _ => rfl⟩, by simp [letters, spread, spreadAll], ?_⟩
    simp [letters, spread, spreadAll, separators]
  have joined : Canonical inner :=
    .collapse (List.forall_mem_cons.mpr ⟨.attributeOf (by decide) (by decide),
      by simpa using .byConvention (by decide) keyed fits⟩)
  have canonical : Canonical (collapse [.literal ['@', '{'], inner]) :=
    .collapse (List.forall_mem_cons.mpr ⟨.literal _, by simpa using joined⟩)
  exact (interpolate_display (fun _ => .error .notFound) {} canonical).1

end StackTemplate
