import StackTemplate.Proofs.DirectiveLookahead
import StackTemplate.Proofs.FragmentCollapse
import StackTemplate.Proofs.ScanSimulation

/-! Where a text can be cut and its pieces interpolated apart. No decision in
front of a safe cut looks past it, so the second piece is scanned as if it stood
alone, with the inclusions that the first piece left over. -/
namespace StackTemplate

/-- The error of a text, told from the start of a longer text that it ends and
under the limit of that text. -/
def Error.beyond (shift limit : Nat) : Error → Error
  | .unterminated delimiter offset => .unterminated delimiter (offset + shift)
  | .tooManyInclusions _ => .tooManyInclusions limit
  | error => error

/-- Errors that differ by a shift are told from the start of the longer text. -/
theorem Error.Matches.eq_beyond {error error' : Error} {shift limit other : Nat}
    (matched : error.Matches (fun offset offset' => offset = offset' + shift) limit other error') :
    error = error'.beyond shift limit := by
  cases matched with
  | unterminated delimiter shifted => rw [shifted, beyond]
  | unreadable path fault => rfl
  | tooMany => rfl

namespace Interpolation
open Directive

/-- The scan of the text ends with a directive that tells itself where it ends. -/
inductive SealedEnd : Text → Prop where
  | last {text extent : Text} {directive : Directive}
      (reading : Directive.read text = ⟨directive, extent, []⟩)
      (delimits : SelfDelimiting text directive) : SealedEnd ('@' :: text)
  | text {c : Char} {rest : Text} (plain : c ≠ '@') (later : SealedEnd rest) : SealedEnd (c :: rest)
  | step {text extent rest : Text} {directive : Directive}
      (reading : Directive.read text = ⟨directive, extent, rest⟩)
      (later : SealedEnd rest) : SealedEnd ('@' :: text)

theorem SealedEnd.holds_at {ending : Text} (sealed : SealedEnd ending) : '@' ∈ ending := by
  induction sealed with
  | last reading delimits => simp
  | text plain later ih => exact List.mem_cons_of_mem _ ih
  | step reading later ih => simp

/-- A scan that went through goes through as far when more text follows a safe
cut, and then goes on where it stopped. -/
theorem scan_append (files : Files) (options : Options) (more : Text) :
    (∀ used origin position text, ∀ inclusions events parts,
      scan files options used origin position text = ⟨inclusions, events, .ok parts⟩ →
      (StartsBlank more ∨ inclusions = [] ∧ (text = [] ∨ SealedEnd text)) →
      ∃ origin' position',
        (∀ k, origin'.offset (position' + k) =
          origin.offset (position + Text.byteLength text + k)) ∧
        scan files options used origin position (text ++ more) =
          ((scan files options (used + inclusions.length) origin' position' more).map
            (parts ++ ·)).after inclusions events) ∧
    ∀ (_ _ : Nat) (_ : List Key), True := by
  apply scan_induction files options
  case nil =>
    intro used origin position inclusions events parts ran _
    rw [scan_nil] at ran
    cases ran
    exact ⟨origin, position, fun k => by simp, by simp⟩
  case text =>
    intro used origin position c text plain ih inclusions events parts ran safe
    rw [scan_text plain] at ran
    obtain ⟨inner, inside, rfl⟩ := Run.map_eq_ok ran
    have later : StartsBlank more ∨ inclusions = [] ∧ (text = [] ∨ SealedEnd text) := by
      rcases safe with blank | ⟨unread, empty | sealed⟩
      · exact .inl blank
      · cases empty
      · cases sealed with
        | last reading delimits => exact absurd rfl plain
        | step reading later => exact absurd rfl plain
        | text plain later => exact .inr ⟨unread, .inr later⟩
    obtain ⟨origin', position', placed, grown⟩ := ih inclusions events inner inside later
    refine ⟨origin', position', fun k => ?_, ?_⟩
    · rw [placed, Text.byteLength_cons, Nat.add_assoc position]
    · rw [List.cons_append, scan_text plain, grown, Run.map_after, Run.map_map]
      rfl
  case unclosed =>
    intro used origin position text delimiter offset extent rest reading inclusions events parts ran _
    rw [scan_unclosed reading] at ran
    cases ran
  case inclusion =>
    intro used origin position text named extent rest reading ih inclusions events parts ran safe
    obtain ⟨content, later, laterTold, room, held, inside, rfl, rfl⟩ := scan_inclusion_ok reading ran
    have blank : StartsBlank more := by
      rcases safe with blank | ⟨unread, _⟩
      · exact blank
      · cases unread
    have grownReading := read_extend reading (fun _ _ => Directive.noConfusion) (.inl blank)
    obtain ⟨origin', position', placed, grown⟩ :=
      ih content room held later laterTold parts inside (.inl blank)
    refine ⟨origin', position', fun k => ?_, ?_⟩
    · rw [placed, Origin.offset_splice _ (by omega), if_neg (by simp; omega)]
      simp only [Text.byteLength_cons, Text.byteLength_append, byteLength_read reading]
      congr 1
      have single : Char.utf8Size '@' = 1 := by decide
      omega
    · rw [List.cons_append, scan_inclusion grownReading, if_pos room, held]
      dsimp only
      rw [← List.append_assoc, grown, Run.after_after]
      simp [Nat.add_assoc, Nat.add_comm 1]
  case yields =>
    intro used origin position text directive extent rest build reading yields _ after
      inclusions events parts ran safe
    obtain ⟨read, told, keys, later, laterTold, inner, keysRan, inside, rfl, rfl, rfl⟩ :=
      scan_yields_ok reading yields ran
    have settled : (StartsBlank more ∨ ('@' ∈ rest ∧ ∀ named, directive ≠ .inclusion named) ∨
          SelfDelimiting text directive) ∧
        (StartsBlank more ∨ later = [] ∧ (rest = [] ∨ SealedEnd rest)) := by
      rcases safe with blank | ⟨unread, empty | sealed⟩
      · exact ⟨.inl blank, .inl blank⟩
      · cases empty
      · have laterUnread := (List.append_eq_nil_iff.mp unread).2
        cases sealed with
        | text plain _ => exact absurd rfl plain
        | last sameReading delimits =>
          cases reading.symm.trans sameReading
          exact ⟨.inr (.inr delimits), .inr ⟨laterUnread, .inl rfl⟩⟩
        | step sameReading behind =>
          cases reading.symm.trans sameReading
          exact ⟨.inr (.inl ⟨behind.holds_at, not_inclusion yields⟩), .inr ⟨laterUnread, .inr behind⟩⟩
    have grownReading := read_extend reading (not_unclosed yields) settled.1
    obtain ⟨origin', position', placed, grown⟩ :=
      after read told keys keysRan later laterTold inner inside settled.2
    refine ⟨origin', position', fun k => ?_, ?_⟩
    · rw [placed, Text.byteLength_cons, byteLength_read reading]
      have single : Char.utf8Size '@' = 1 := by decide
      congr 1
      omega
    · rw [List.cons_append, scan_yields grownReading yields, keysRan]
      dsimp only
      rw [grown, Run.map_after, Run.map_map, Run.after_after]
      simp [Nat.add_assoc, Function.comp_def]
  all_goals
    intros
    trivial

private theorem yield_unjoined {directive : Directive} {build : List Fragment → Fragment}
    (yields : directive.yield? = some build) (keys inner : List Fragment) : build keys ≠ .join inner := by
  cases directive with
  | escape => cases yields; exact Fragment.noConfusion
  | plain => cases yields; exact Fragment.noConfusion
  | inclusion named => cases yields
  | expression lead shape => cases yields; exact (shape.build_cases keys).2 inner
  | rejected lead shape => cases yields; exact Fragment.noConfusion
  | unclosed delimiter offset => cases yields

/-- A scan never lists a join: joins only come about when a list is collapsed. -/
theorem scan_unjoined (files : Files) (options : Options) :
    (∀ used origin position text, ∀ inclusions events parts,
      scan files options used origin position text = ⟨inclusions, events, .ok parts⟩ →
      Fragment.Unjoined parts) ∧
    ∀ (_ _ : Nat) (_ : List Key), True := by
  apply scan_induction files options
  case nil =>
    intro used origin position inclusions events parts ran
    rw [scan_nil] at ran
    cases ran
    intro part member
    cases member
  case text =>
    intro used origin position c text plain ih inclusions events parts ran
    rw [scan_text plain] at ran
    obtain ⟨inner, inside, rfl⟩ := Run.map_eq_ok ran
    exact List.forall_mem_cons.mpr ⟨fun _ => Fragment.noConfusion, ih _ _ _ inside⟩
  case unclosed =>
    intro used origin position text delimiter offset extent rest reading inclusions events parts ran
    rw [scan_unclosed reading] at ran
    cases ran
  case inclusion =>
    intro used origin position text named extent rest reading ih inclusions events parts ran
    obtain ⟨content, later, laterTold, room, held, inside, _, _⟩ := scan_inclusion_ok reading ran
    exact ih content room held _ _ _ inside
  case yields =>
    intro used origin position text directive extent rest build reading yields _ after
      inclusions events parts ran
    obtain ⟨read, told, keys, later, laterTold, inner, keysRan, inside, _, _, rfl⟩ :=
      scan_yields_ok reading yields ran
    exact List.forall_mem_cons.mpr
      ⟨yield_unjoined yields keys, after _ _ _ keysRan _ _ _ inside⟩
  all_goals
    intros
    trivial

end Interpolation

open Interpolation Directive Fragment in
/-- Interpolation is a homomorphism at safe cuts: behind the cut stands an end or
a blank, or the first text reads no file and its last directive tells itself where
it ends. The second text then denotes what it denotes alone, with the inclusions
that the first one left over, and its error is told from the start of the whole. -/
theorem interpolate_append (files : Files) (options : Options) {first second : Text}
    {value : Fragment} (ran : (interpolate files options first).result = .ok value)
    (safe : StartsBlank second ∨
      (interpolate files options first).inclusions = [] ∧ SealedEnd first) :
    let spent := (interpolate files options first).inclusions.length
    let alone := interpolate files { options with includeLimit := options.includeLimit - spent } second
    let whole := interpolate files options (first ++ second)
    (∀ other, alone.result = .ok other →
      whole.result = .ok (collapse (pieces value ++ pieces other))) ∧
    ∀ error, alone.result = .error error →
      whole.result = .error (error.beyond (Text.byteLength first) options.includeLimit) := by
  intro spent alone whole
  obtain ⟨events, parts, rfl, scanned⟩ := interpolate_ok ran
  obtain ⟨origin, position, placed, grown⟩ := (scan_append files options second).1 0 (.start 0) 0
    first _ events parts scanned (safe.imp_right fun ⟨unread, sealed⟩ => ⟨unread, .inr sealed⟩)
  let left : Options := { options with includeLimit := options.includeLimit - spent }
  have wholeRan : whole.result =
      ((scan files options (0 + spent) origin position second).result.map (parts ++ ·)).map collapse := by
    change (interpolate files options (first ++ second)).result = _
    rw [interpolate_eq_map_collapse, grown]
    rfl
  have aloneRan : alone.result = (scan files left 0 (.start 0) 0 second).result.map collapse := by
    change (interpolate files left second).result = _
    rw [interpolate_eq_map_collapse]
    rfl
  have matched := (@scan_matches files options left rfl).1 (0 + spent) origin position second
    0 (.start 0) 0 (fun offset offset' => offset = offset' + Text.byteLength first)
    (by simp [left]) (fun k => by rw [placed]; simp [Nat.add_comm])
  have unjoined := (scan_unjoined files options).1 _ _ _ _ _ _ _ scanned
  have laterUnjoined := (scan_unjoined files left).1 0 (.start 0) 0 second
  rw [wholeRan, aloneRan]
  generalize scan files options (0 + spent) origin position second = run at matched ⊢
  generalize scan files left 0 (.start 0) 0 second = run' at matched laterUnjoined ⊢
  cases matched with
  | ended inclusions told told' later =>
    refine ⟨fun other same => ?_, fun error failed => by cases failed⟩
    cases same
    rw [collapse_pieces_append unjoined (laterUnjoined _ _ _ rfl)]
    rfl
  | failed inclusions told told' errors =>
    refine ⟨fun other same => (by cases same), fun error failed => ?_⟩
    cases failed
    rw [errors.eq_beyond]
    rfl

open Interpolation Directive in
/-- Both kinds of cut: in front of a blank with an error behind it, and after a
brace with a dot behind it. -/
theorem interpolate_append_at_blank_and_brace :
    let files : Files := fun path => if path = ['f'] then .ok ['@', 'A'] else .error .notFound
    (interpolate files { includeLimit := 1 } ('@' :: scheme ++ ['f'] ++ [' ', '@', '{'])).result =
      .error (.unterminated .brace 10) ∧
    (interpolate files {} (['@', '{', 'A', '}'] ++ ['.', 'x'])).result =
      .ok (.join [.reference ['A'], .literal ['.', 'x']]) := by
  intro files
  constructor
  · exact (@interpolate_append files { includeLimit := 1 } ('@' :: scheme ++ ['f']) [' ', '@', '{']
      (.reference ['A']) (by cbv) (.inl (by decide))).2 (.unterminated .brace 1) (by cbv)
  · have sealed : SealedEnd ['@', '{', 'A', '}'] :=
      @SealedEnd.last _ ['{', 'A', '}'] (.expression 2 (.reference ['A'])) (by decide)
        (.inr (.inl ⟨rfl, _, _, rfl⟩))
    exact (@interpolate_append files {} ['@', '{', 'A', '}'] ['.', 'x'] (.reference ['A'])
      (by cbv) (.inr ⟨by cbv, sealed⟩)).1 (.literal ['.', 'x']) (by cbv)

end StackTemplate
