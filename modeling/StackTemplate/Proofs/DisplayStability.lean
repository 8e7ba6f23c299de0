import StackTemplate.Proofs.FragmentShape
import StackTemplate.Proofs.SourceEcho

/-! When the source text of a result is read as the result again. It is unless a key
cannot be written: display puts braces around every lookup and doubles every `@`, but a
key may have been read with a brace of its own, or as it stands with an `@` inside. -/
namespace StackTemplate

namespace Fragment
open Directive Interpolation

variable {files : Files} {options : Options}

theorem merge_of_apart {parts : List Fragment} (full : literal [] ∉ parts) (apart : Apart parts) :
    merge parts = parts := by
  induction parts with
  | nil => rfl
  | cons part parts ih =>
    have later := ih (fun member => full (List.mem_cons_of_mem _ member)) apart.tail
    rw [merge_cons, later]
    obtain ⟨rfl, _⟩ | ⟨text, next, more, _, rfl, rfl, _⟩ | ⟨_, same⟩ := prepend_cases part parts
    · exact absurd List.mem_cons_self full
    · exact absurd ⟨rfl, rfl⟩ (List.isChain_cons_cons.mp apart).1
    · exact same

/-- Reading gives flat fragments. -/
theorem WellShaped.flatten_self {fragment : Fragment} (shaped : WellShaped fragment) :
    flatten fragment = fragment := by
  induction shaped with
  | literal text => exact flatten_literal text
  | reference named => rfl
  | attributeOf named led => rfl
  | lookup named several shaped ih => exact flatten_lookup ih
  | @join parts several expressive full apart unjoined shaped ih =>
    have listed : spreadAll parts = parts := spreadAll_of_flat fun part member =>
      spread_of_flat (unjoined part member) (ih part member)
    rw [flatten, spread, listed, collapse, merge_of_apart full apart]
    obtain ⟨first, more, rfl⟩ := List.exists_cons_of_length_pos (Nat.lt_of_lt_of_le Nat.two_pos several)
    cases more with
    | nil => simp at several
    | cons second more => rfl

theorem reads_attribute {name path : Text} (named : IsName name) (led : ReadablePath path) :
    Reads files options (delimited (name ++ '.' :: path)) [attributeOf name path] := by
  have dot : Balanced .brace ['.'] := rfl
  have balanced := (named.nested.balanced .brace).append (dot.append led.balanced)
  exact reads_delimited balanced (tight_attribute named led.full led.last)
    (find_attribute named led.full) fun used base => ⟨[], scanKeys_nil⟩

/-- Keys that reading spelled and that can be written are read back. -/
theorem KeySpelled.reads {key : Fragment} (spelled : KeySpelled key) (writable : KeyWritable key)
    (nested : Nested 0 (display key)) (reads : Reads files options (display key) (letters (spread key))) :
    KeyReads files options key := by
  refine ⟨spelled.full, spelled.tight, nested, fun _ => reads, fun unsigned => ?_⟩
  obtain ⟨text, rfl⟩ := exists_text (spelled.verbatim unsigned)
  have plain : '@' ∉ text := by
    intro member
    rw [display, head_escape] at unsigned
    exact unsigned (writable.2 member)
  rw [flatten_literal, display, escape_self plain]

theorem reads_all {parts : List Fragment}
    (reads : ∀ part ∈ parts, Reads files options (display part) (letters (spread part))) :
    Reads files options (displayAll parts).flatten (letters (spreadAll parts)) := by
  induction parts with
  | nil => exact Renders.nil.reads
  | cons part parts ih =>
    rw [spreadAll, letters_append, displayAll, List.flatten_cons]
    exact (reads part (by simp)).append (ih fun other member => reads other (List.mem_cons_of_mem _ member))

/-- The source text of a well-shaped fragment is read as the fragment if its keys are
spelled and nested and can be written. -/
theorem WellShaped.reads {fragment : Fragment} (shaped : WellShaped fragment)
    (fits : ∀ key ∈ keysWithin fragment, KeySpelled key ∧ KeyWritable key ∧ Nested 0 (display key)) :
    Reads files options (display fragment) (letters (spread fragment)) := by
  induction shaped with
  | literal text => exact (renders_escape text).reads
  | reference named => exact (renders_reference named).reads
  | attributeOf named led => exact reads_attribute named led
  | lookup named several shaped ih =>
    obtain ⟨own, inner⟩ := List.forall_mem_append.mp fits
    refine (renders_explicit named several (fun stem member => ?_) fun key member => ?_).reads
    · cases shaped _ member with
      | reference named => exact named
    · obtain ⟨spelled, writable, nested⟩ := own key member
      exact spelled.reads writable nested
        (ih key member fun other inside => inner other (keysWithin_subset member inside))
  | join several expressive full apart unjoined shaped ih =>
    exact reads_all fun part member =>
      ih part member fun key inside => fits key (keysWithin_subset member inside)

end Fragment

open Fragment Interpolation

/-- Text that is scanned as a word denotes the collapse of the word. -/
theorem Fragment.Reads.interpolate {files : Files} {options : Options} {text : Text} {word : List Fragment}
    (reads : Reads files options text word) :
    ∃ told, interpolate files options text = ⟨[], told, .ok (collapse word)⟩ := by
  obtain ⟨position, told, ran⟩ := reads 0 (.start 0) 0 []
  rw [List.append_nil, scan_nil] at ran
  refine ⟨told, ?_⟩
  rw [interpolate_eq_map_collapse, ran]
  simp [Run.done, Run.map, Run.after, Except.map]

/-- Rounds that start from a stable source text all end alike. -/
theorem interpolateRounds_stable {files : Files} {options : Options} {value : Fragment}
    (stable : (interpolate files options value.display).result = .ok value) (rounds : Nat) :
    (interpolateRounds files options rounds value.display).map Run.result =
      List.replicate rounds (.ok value) := by
  induction rounds with
  | zero => rfl
  | succ rounds ih => simp [interpolateRounds, stable, ih, List.replicate_succ]

/-- A text that reads no file is echoed by what it denotes. -/
theorem interpolate_echoes {files : Files} {options : Options} {text : Text} {value : Fragment}
    (ran : (interpolate files options text).result = .ok value)
    (unread : (interpolate files options text).inclusions = []) : Echoes text value := by
  obtain ⟨events, parts, rfl, scanned⟩ := interpolate_ok ran
  rw [unread] at scanned
  exact ((scan_echoes files options).1 _ _ _ _ _ _ scanned).collapse

/-- Display of a result is read as the result again, without a file, exactly if all of
its keys can be written: the braces in the source text of every key are balanced, and a
key that is text with an `@` in it begins with one. All further rounds then end alike. -/
theorem interpolate_display_iff {files files' : Files} {options options' : Options} {text : Text}
    {value : Fragment} (ran : (interpolate files options text).result = .ok value)
    (unread : (interpolate files options text).inclusions = []) :
    let again := interpolate files' options' value.display
    (again.result = .ok value ∧ again.inclusions = [] ↔ ∀ key ∈ keysWithin value, KeyWritable key) ∧
    ((∀ key ∈ keysWithin value, KeyWritable key) → ∀ rounds,
      (interpolateRounds files' options' rounds value.display).map Run.result =
        List.replicate rounds (.ok value)) := by
  intro again
  have echoes := interpolate_echoes ran unread
  have shaped : WellShaped value := by
    obtain ⟨events, parts, rfl, scanned⟩ := interpolate_ok ran
    exact collapse_wellShaped ((scan_unjoined files options).1 _ _ _ _ _ _ _ scanned)
      ((scan_wellShaped files options).1 _ _ _ _ _ _ _ scanned)
  have restored (writable : ∀ key ∈ keysWithin value, KeyWritable key) :
      again.result = .ok value ∧ again.inclusions = [] := by
    have reads : Reads files' options' value.display (letters (spread value)) := by
      refine shaped.reads fun key member => ⟨echoes.spelled key member, writable key member, ?_⟩
      exact (echoes.nesting writable).2 key member
    obtain ⟨told, ended⟩ := reads.interpolate
    have listed : collapse (letters (spread value)) = value := by
      rw [collapse_letters]
      exact shaped.flatten_self
    rw [show again = _ from ended, listed]
    exact ⟨rfl, rfl⟩
  refine ⟨⟨fun ⟨same, unreadAgain⟩ => ?_, restored⟩, fun writable => ?_⟩
  · exact (interpolate_echoes same unreadAgain).settled rfl
  · exact interpolateRounds_stable (restored writable).1

/-- Of three lookups with two keys, one begins a key with an `@` and has its braces
paired, and comes back; an `@` inside a key and a brace without its pair are lost. -/
theorem interpolate_display_iff_sign_and_brace :
    let files : Files := fun _ => .error .notFound
    let text := fun key => '@' :: 'M' :: '[' :: key ++ [',', ' ', 'c', ']']
    let value := fun key => Fragment.lookup ['M'] [.literal key, .literal ['c']]
    let again := fun key => (interpolate files {} (value key).display).result
    (interpolateRounds files {} 3 (value ['@', '{', '}']).display).map Run.result =
      List.replicate 3 (.ok (value ['@', '{', '}'])) ∧
    (interpolate files {} (text ['a', '@', 'b'])).result = .ok (value ['a', '@', 'b']) ∧
    again ['a', '@', 'b'] ≠ .ok (value ['a', '@', 'b']) ∧
    (interpolate files {} (text ['a', '}'])).result = .ok (value ['a', '}']) ∧
    again ['a', '}'] ≠ .ok (value ['a', '}']) := by
  intro files text value again
  have lost {key : Text} (ran : (interpolate files {} (text key)).result = .ok (value key))
      (unread : (interpolate files {} (text key)).inclusions = [])
      (unreadAgain : (interpolate files {} (value key).display).inclusions = [])
      (unwritable : ¬KeyWritable (.literal key)) : again key ≠ .ok (value key) := by
    intro same
    have writable := (interpolate_display_iff ran unread).1.mp ⟨same, unreadAgain⟩
    exact unwritable (writable (.literal key) (by simp [value, keysWithin]))
  have signed : (interpolate files {} (text ['a', '@', 'b'])).result = .ok (value ['a', '@', 'b']) := by cbv
  have braced : (interpolate files {} (text ['a', '}'])).result = .ok (value ['a', '}']) := by cbv
  refine ⟨?_, signed, lost signed (by cbv) (by cbv) (by decide), braced,
    lost braced (by cbv) (by cbv) (by decide)⟩
  refine (@interpolate_display_iff files files {} {} (text ['@', '@', '{', '}']) _ (by cbv) (by cbv)).2 ?_ 3
  decide

end StackTemplate
