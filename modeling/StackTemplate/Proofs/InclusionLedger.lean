import StackTemplate.Proofs.Classification
import StackTemplate.Proofs.LimitThreshold
import StackTemplate.Proofs.ScanSimulation

/-! What the limit on inclusions is charged for. The keys of a body in braces are scanned
before it is known whether the body is an expression. When it is not, the `@` is text and
the same keys are scanned once more as text, but what their first scan included stays
charged. A ledger keeps those inclusions apart from the ones the result was built from. -/
namespace StackTemplate

namespace Interpolation
open Directive (Key)

/-- What is scanned: a text, or the keys of an expression. -/
inductive Source where
  | text (text : Text)
  | keys (keys : List Key)

/-- What a source comes to under no limit, and the inclusions on its way. The content of the
`kept` ones went into text that the result is built from. The `wasted` ones were made for
the keys of bodies that were given up. -/
inductive Ledger (files : Files) (locate : Text → Text) :
    Source → List Inclusion → List Inclusion → List Fragment → Prop where
  | nil : Ledger files locate (.text []) [] [] []
  | character {c : Char} {text : Text} {kept wasted : List Inclusion} {parts : List Fragment}
      (plain : c ≠ '@') (later : Ledger files locate (.text text) kept wasted parts) :
      Ledger files locate (.text (c :: text)) kept wasted (.literal [c] :: parts)
  | included {text named extent rest content : Text} {kept wasted : List Inclusion}
      {parts : List Fragment} (reading : Directive.read text = ⟨.inclusion named, extent, rest⟩)
      (held : files (locate named) = .ok content)
      (later : Ledger files locate (.text (content ++ rest)) kept wasted parts) :
      Ledger files locate (.text ('@' :: text)) (⟨named, locate named⟩ :: kept) wasted parts
  | accepted {text extent rest : Text} {directive : Directive} {build : List Fragment → Fragment}
      {keyKept keyWasted kept wasted : List Inclusion} {found parts : List Fragment}
      (reading : Directive.read text = ⟨directive, extent, rest⟩)
      (yields : directive.yield? = some build)
      (notRejected : ∀ lead shape, directive ≠ .rejected lead shape)
      (inside : Ledger files locate (.keys directive.keys) keyKept keyWasted found)
      (later : Ledger files locate (.text rest) kept wasted parts) :
      Ledger files locate (.text ('@' :: text)) (keyKept ++ kept) (keyWasted ++ wasted)
        (build found :: parts)
  | rejected {text extent rest : Text} {lead : Nat} {shape : Shape}
      {keyKept keyWasted kept wasted : List Inclusion} {found parts : List Fragment}
      (reading : Directive.read text = ⟨.rejected lead shape, extent, rest⟩)
      (inside : Ledger files locate (.keys shape.keys) keyKept keyWasted found)
      (later : Ledger files locate (.text rest) kept wasted parts) :
      Ledger files locate (.text ('@' :: text)) kept (keyKept ++ keyWasted ++ wasted)
        (.literal ['@'] :: parts)
  | noKeys : Ledger files locate (.keys []) [] [] []
  | literalKey {key : Key} {more : List Key} {kept wasted : List Inclusion} {found : List Fragment}
      (verbatim : key.text.head? ≠ some '@')
      (later : Ledger files locate (.keys more) kept wasted found) :
      Ledger files locate (.keys (key :: more)) kept wasted (.literal key.text :: found)
  | scannedKey {key : Key} {more : List Key} {keyKept keyWasted kept wasted : List Inclusion}
      {parts found : List Fragment} (isAt : key.text.head? = some '@')
      (inside : Ledger files locate (.text key.text) keyKept keyWasted parts)
      (later : Ledger files locate (.keys more) kept wasted found) :
      Ledger files locate (.keys (key :: more)) (keyKept ++ kept) (keyWasted ++ wasted)
        (.collapse parts :: found)

/-- The scan of a source goes through, wherever it stands. -/
def Source.GoesThrough (files : Files) (options : Options) (used : Nat) (inclusions : List Inclusion)
    (parts : List Fragment) : Source → Prop
  | .text here => ∀ origin position, ∃ events,
      scan files options used origin position here = ⟨inclusions, events, .ok parts⟩
  | .keys listed => ∀ base, ∃ events,
      scanKeys files options used base listed = ⟨inclusions, events, .ok parts⟩

variable {files : Files} {options : Options}

private theorem charged_together {own later keyKept keyWasted kept wasted : List Inclusion}
    (ownCharged : own.Perm (keyKept ++ keyWasted)) (laterCharged : later.Perm (kept ++ wasted)) :
    (own ++ later).Perm (keyKept ++ kept ++ (keyWasted ++ wasted)) := by
  calc (own ++ later).Perm (keyKept ++ keyWasted ++ (kept ++ wasted)) := ownCharged.append laterCharged
    _ = keyKept ++ (keyWasted ++ (kept ++ wasted)) := List.append_assoc _ _ _
    List.Perm _ (keyKept ++ (kept ++ (keyWasted ++ wasted))) :=
      (List.perm_append_comm_assoc keyWasted kept wasted).append_left keyKept
    _ = keyKept ++ kept ++ (keyWasted ++ wasted) := (List.append_assoc _ _ _).symm

private theorem charged_rejected {own later keyKept keyWasted kept wasted : List Inclusion}
    (ownCharged : own.Perm (keyKept ++ keyWasted)) (laterCharged : later.Perm (kept ++ wasted)) :
    (own ++ later).Perm (kept ++ (keyKept ++ keyWasted ++ wasted)) :=
  (ownCharged.append laterCharged).trans (List.perm_append_comm_assoc (keyKept ++ keyWasted) kept wasted)

/-- A scan that went through is in the ledger, with everything it included. -/
theorem exists_ledger (files : Files) (options : Options) :
    (∀ used origin position text, ∀ inclusions events parts,
      scan files options used origin position text = ⟨inclusions, events, .ok parts⟩ →
      ∃ kept wasted, Ledger files options.locate (.text text) kept wasted parts ∧
        inclusions.Perm (kept ++ wasted)) ∧
    ∀ used base keys, ∀ inclusions events found,
      scanKeys files options used base keys = ⟨inclusions, events, .ok found⟩ →
      ∃ kept wasted, Ledger files options.locate (.keys keys) kept wasted found ∧
        inclusions.Perm (kept ++ wasted) := by
  apply scan_induction files options
  case nil =>
    intro used origin position inclusions events parts ran
    rw [scan_nil] at ran
    cases ran
    exact ⟨[], [], .nil, .refl _⟩
  case text =>
    intro used origin position c text plain ih inclusions events parts ran
    rw [scan_text plain] at ran
    obtain ⟨inner, ranLater, rfl⟩ := Run.map_eq_ok ran
    obtain ⟨kept, wasted, ledger, charged⟩ := ih _ _ _ ranLater
    exact ⟨kept, wasted, .character plain ledger, charged⟩
  case unclosed =>
    intro used origin position text delimiter offset extent rest reading inclusions events parts ran
    rw [scan_unclosed reading] at ran
    cases ran
  case inclusion =>
    intro used origin position text named extent rest reading ih inclusions events parts ran
    obtain ⟨content, later, told, room, held, ranLater, rfl, _⟩ := scan_inclusion_ok reading ran
    obtain ⟨kept, wasted, ledger, charged⟩ := ih content room held _ _ _ ranLater
    exact ⟨_, wasted, .included reading held ledger, charged.cons _⟩
  case yields =>
    intro used origin position text directive extent rest build reading yields keysIh laterIh
      inclusions events parts ran
    obtain ⟨own, told, found, later, laterTold, inner, keysRan, ranLater, rfl, _, rfl⟩ :=
      scan_yields_ok reading yields ran
    obtain ⟨keyKept, keyWasted, inside, keysCharged⟩ := keysIh _ _ _ keysRan
    obtain ⟨kept, wasted, ledger, charged⟩ := laterIh _ _ _ keysRan _ _ _ ranLater
    by_cases isRejected : ∃ lead shape, directive = .rejected lead shape
    · obtain ⟨lead, shape, rfl⟩ := isRejected
      cases yields
      exact ⟨kept, _, .rejected reading inside ledger, charged_rejected keysCharged charged⟩
    · have notRejected : ∀ lead shape, directive ≠ .rejected lead shape := fun lead shape same =>
        isRejected ⟨lead, shape, same⟩
      exact ⟨_, _, .accepted reading yields notRejected inside ledger,
        charged_together keysCharged charged⟩
  case noKeys =>
    intro used base inclusions events found ran
    rw [scanKeys_nil] at ran
    cases ran
    exact ⟨[], [], .noKeys, .refl _⟩
  case literalKey =>
    intro used base key more verbatim ih inclusions events found ran
    rw [scanKeys_literal verbatim] at ran
    obtain ⟨inner, ranLater, rfl⟩ := Run.map_eq_ok ran
    obtain ⟨kept, wasted, ledger, charged⟩ := ih _ _ _ ranLater
    exact ⟨kept, wasted, .literalKey verbatim ledger, charged⟩
  case scannedKey =>
    intro used base key more isAt insideIh laterIh inclusions events found ran
    obtain ⟨own, told, parts, later, laterTold, inner, ranHere, ranLater, rfl, _, rfl⟩ :=
      scanKeys_scanned_ok isAt ran
    obtain ⟨keyKept, keyWasted, inside, keyCharged⟩ := insideIh _ _ _ ranHere
    obtain ⟨kept, wasted, ledger, charged⟩ := laterIh _ _ _ ranHere _ _ _ ranLater
    exact ⟨_, _, .scannedKey isAt inside ledger, charged_together keyCharged charged⟩

/-- A directive that yields a fragment goes through when its keys and the rest do. -/
private theorem goesThrough_yields {used : Nat} {text extent rest : Text} {directive : Directive}
    {build : List Fragment → Fragment} {own later : List Inclusion} {found parts : List Fragment}
    (reading : Directive.read text = ⟨directive, extent, rest⟩)
    (yields : directive.yield? = some build)
    (inside : Source.GoesThrough files options used own found (.keys directive.keys))
    (after : Source.GoesThrough files options (used + own.length) later parts (.text rest)) :
    Source.GoesThrough files options used (own ++ later) (build found :: parts) (.text ('@' :: text)) := by
  intro origin position
  obtain ⟨told, keysRan⟩ := inside (position + directive.keysStart)
  obtain ⟨laterTold, ranLater⟩ := after origin (position + 1 + Text.byteLength extent)
  refine ⟨told ++ directive.reports position found ++ laterTold, ?_⟩
  rw [scan_yields reading yields, keysRan]
  simp only [ranLater]
  rfl

/-- The source goes through wherever the limit has room for all of these inclusions. -/
def Source.Affordable (files : Files) (options : Options) (source : Source)
    (kept wasted : List Inclusion) (parts : List Fragment) : Prop :=
  ∀ used, used + (kept.length + wasted.length) ≤ options.includeLimit →
    ∃ inclusions, source.GoesThrough files options used inclusions parts ∧ inclusions.Perm (kept ++ wasted)

/-- Two sources go through, one after the other, where there is room for both. -/
private theorem affordable_both (used : Nat) {source next : Source}
    {keyKept keyWasted kept wasted : List Inclusion} {found parts : List Fragment}
    (inside : source.Affordable files options keyKept keyWasted found)
    (after : next.Affordable files options kept wasted parts)
    (fits : used + (keyKept.length + keyWasted.length + (kept.length + wasted.length)) ≤
      options.includeLimit) :
    ∃ own later, source.GoesThrough files options used own found ∧
      own.Perm (keyKept ++ keyWasted) ∧
      next.GoesThrough files options (used + own.length) later parts ∧ later.Perm (kept ++ wasted) := by
  obtain ⟨own, through, ownCharged⟩ := inside used (by omega)
  have counted := ownCharged.length_eq
  rw [List.length_append] at counted
  obtain ⟨later, laterThrough, laterCharged⟩ := after (used + own.length) (by omega)
  exact ⟨own, later, through, ownCharged, laterThrough, laterCharged⟩

/-- What is in the ledger goes through, once everything in it fits the limit. -/
theorem Ledger.affordable {source : Source} {kept wasted : List Inclusion} {parts : List Fragment}
    (ledger : Ledger files options.locate source kept wasted parts) :
    source.Affordable files options kept wasted parts := by
  induction ledger with
  | nil => exact fun used _ => ⟨[], fun origin position => ⟨[], scan_nil⟩, .refl _⟩
  | character plain later ih =>
    intro used fits
    obtain ⟨inclusions, through, charged⟩ := ih used fits
    refine ⟨inclusions, fun origin position => ?_, charged⟩
    obtain ⟨told, ran⟩ := through origin _
    exact ⟨told, by rw [scan_text plain, ran]; rfl⟩
  | @included _ _ extent _ content _ _ _ reading held later ih =>
    intro used fits
    simp only [List.length_cons] at fits
    have room : used < options.includeLimit := by omega
    obtain ⟨inclusions, through, charged⟩ := ih (used + 1) (by omega)
    refine ⟨_, fun origin position => ?_, charged.cons _⟩
    obtain ⟨told, ran⟩ := through (origin.splice position (position + 1 + Text.byteLength extent)
      (Text.byteLength content)) 0
    exact ⟨_, by rw [scan_inclusion reading, if_pos room, held]; simp only [ran]; rfl⟩
  | accepted reading yields notRejected inside later insideIh laterIh =>
    intro used fits
    simp only [List.length_append] at fits
    obtain ⟨own, inclusions, keysThrough, keysCharged, through, charged⟩ :=
      affordable_both used insideIh laterIh (by omega)
    exact ⟨_, goesThrough_yields reading yields keysThrough through, charged_together keysCharged charged⟩
  | rejected reading inside later insideIh laterIh =>
    intro used fits
    simp only [List.length_append] at fits
    obtain ⟨own, inclusions, keysThrough, keysCharged, through, charged⟩ :=
      affordable_both used insideIh laterIh (by omega)
    exact ⟨_, goesThrough_yields reading rfl keysThrough through, charged_rejected keysCharged charged⟩
  | noKeys => exact fun used _ => ⟨[], fun base => ⟨[], scanKeys_nil⟩, .refl _⟩
  | literalKey verbatim later ih =>
    intro used fits
    obtain ⟨inclusions, through, charged⟩ := ih used fits
    refine ⟨inclusions, fun base => ?_, charged⟩
    obtain ⟨told, ran⟩ := through base
    exact ⟨told, by rw [scanKeys_literal verbatim, ran]; rfl⟩
  | @scannedKey key _ _ _ _ _ _ _ isAt inside later insideIh laterIh =>
    intro used fits
    simp only [List.length_append] at fits
    obtain ⟨own, inclusions, keyThrough, keyCharged, through, charged⟩ :=
      affordable_both used insideIh laterIh (by omega)
    refine ⟨_, fun base => ?_, charged_together keyCharged charged⟩
    obtain ⟨early, ranHere⟩ := keyThrough (.start (base + key.offset)) 0
    obtain ⟨late, ranLater⟩ := through base
    refine ⟨early ++ late, ?_⟩
    rw [scanKeys_scanned isAt, ranHere]
    simp only [ranLater, Assembly.ofFragments_eq_collapse]
    rfl

/-- A text in the ledger goes through when everything in it fits the limit, and is stopped
by the limit when not: under an ample limit it goes through, and the smaller one cuts it off. -/
theorem Ledger.interpolated {text : Text} {kept wasted : List Inclusion} {parts : List Fragment}
    (ledger : Ledger files options.locate (.text text) kept wasted parts) :
    let run := interpolate files options text
    (kept.length + wasted.length ≤ options.includeLimit →
      run.result = .ok (.collapse parts) ∧ run.inclusions.Perm (kept ++ wasted)) ∧
    (options.includeLimit < kept.length + wasted.length →
      run.result = .error (.tooManyInclusions options.includeLimit)) := by
  intro run
  have scanned : run = (scan files options 0 (.start 0) 0 text).map .collapse :=
    interpolate_eq_map_collapse files options text
  constructor
  · intro fits
    obtain ⟨inclusions, through, charged⟩ := ledger.affordable 0 (by omega)
    obtain ⟨events, ran⟩ := through (.start 0) 0
    rw [scanned, ran]
    exact ⟨rfl, charged⟩
  · intro exceeds
    let ample : Options := { options with includeLimit := kept.length + wasted.length }
    have ledger' : Ledger files ample.locate (.text text) kept wasted parts := ledger
    obtain ⟨inclusions, through, charged⟩ := ledger'.affordable 0 (by simp [ample])
    obtain ⟨events, ran⟩ := through (.start 0) 0
    have counted := charged.length_eq
    rw [List.length_append] at counted
    have cut := (scan_cutAt files ample options.includeLimit).1 0 (.start 0) 0 text (Nat.zero_le _)
      (by rw [ran]; exact Run.not_stopped_ok)
    have same : { ample with includeLimit := options.includeLimit } = options := rfl
    rw [ran, same] at cut
    rw [scanned]
    generalize scan files options 0 (.start 0) 0 text = other at cut ⊢
    cases cut with
    | whole fits =>
      simp only at fits
      omega
    | short exceeds taken ended => rw [Run.result_map, ended]; rfl

/-- Deciding what an `@` comes to charges what the keys behind it include, all of it, whether
they belong to an expression or to a body that is given up. -/
theorem classify_charged {used position : Nat} {text : Text} {inclusions : List Inclusion}
    {events : List Event} {outcome : Outcome}
    (ran : classify files options used position text = ⟨inclusions, events, .ok outcome⟩) :
    ∃ kept wasted found,
      Ledger files options.locate (.keys (Directive.read text).directive.keys) kept wasted found ∧
        inclusions.Perm (kept ++ wasted) := by
  rw [classify_eq_settle] at ran
  rcases reading : Directive.read text with ⟨directive, extent, rest⟩
  rw [reading] at ran
  cases directive with
  | unclosed delimiter offset => cases ran
  | _ =>
    obtain ⟨found, keysRan, _⟩ := Run.map_eq_ok ran
    obtain ⟨kept, wasted, ledger, charged⟩ := (exists_ledger files options).2 _ _ _ _ _ _ keysRan
    exact ⟨kept, wasted, found, ledger, charged⟩

private theorem ledger_characters {locate : Text → Text} {front rest : Text}
    {kept wasted : List Inclusion} {parts : List Fragment} (plain : ∀ c ∈ front, c ≠ '@')
    (later : Ledger files locate (.text rest) kept wasted parts) :
    Ledger files locate (.text (front ++ rest)) kept wasted (front.map (.literal [·]) ++ parts) := by
  induction front with
  | nil => exact later
  | cons c front ih =>
    obtain ⟨here, others⟩ := List.forall_mem_cons.mp plain
    exact .character here (ih others)

end Interpolation

open Interpolation

/-- The limit is charged for all that was included on the way, not only for what the result
was built from. What a brace comes to is decided at the cost of the keys in its body, even
if the body is given up. A text denotes a value exactly if it is in the ledger with no more
inclusions than the limit allows, kept and wasted ones together; with more of them the limit
stops it. What is charged is what the result was built from only where nothing was wasted. -/
theorem interpolate_charges (files : Files) (options : Options) :
    (∀ used position inner inclusions events outcome,
      classify files options used position ('{' :: inner) = ⟨inclusions, events, .ok outcome⟩ →
      ∃ kept wasted found,
        Ledger files options.locate (.keys (Directive.read ('{' :: inner)).directive.keys) kept wasted found ∧
          inclusions.Perm (kept ++ wasted)) ∧
    (∀ text value, (interpolate files options text).result = .ok value ↔
      ∃ kept wasted parts, Ledger files options.locate (.text text) kept wasted parts ∧
        kept.length + wasted.length ≤ options.includeLimit ∧ value = .collapse parts) ∧
    ∀ text kept wasted parts, Ledger files options.locate (.text text) kept wasted parts →
      let run := interpolate files options text
      (kept.length + wasted.length ≤ options.includeLimit →
        run.inclusions.Perm (kept ++ wasted) ∧ (run.inclusions.length = kept.length ↔ wasted = [])) ∧
      (options.includeLimit < kept.length + wasted.length →
        run.result = .error (.tooManyInclusions options.includeLimit)) := by
  refine ⟨fun _ _ _ _ _ _ ran => classify_charged ran, fun text value => ?_, ?_⟩
  · constructor
    · intro ran
      obtain ⟨events, parts, rfl, scanned⟩ := interpolate_ok ran
      obtain ⟨kept, wasted, ledger, _⟩ := (exists_ledger files options).1 _ _ _ _ _ _ _ scanned
      refine ⟨kept, wasted, parts, ledger, ?_, rfl⟩
      by_contra exceeds
      cases ran.symm.trans (ledger.interpolated.2 (Nat.lt_of_not_le exceeds))
    · rintro ⟨kept, wasted, parts, ledger, fits, rfl⟩
      exact (ledger.interpolated.1 fits).1
  · intro text kept wasted parts ledger run
    refine ⟨fun fits => ?_, ledger.interpolated.2⟩
    have charged : run.inclusions.Perm (kept ++ wasted) := (ledger.interpolated.1 fits).2
    have counted := charged.length_eq
    rw [List.length_append] at counted
    refine ⟨charged, ?_⟩
    rw [← List.length_eq_zero_iff]
    omega

/-- A body that is given up for the text behind its brackets includes one file in a key,
and the result is built from that file's content once; it takes a limit of two. -/
theorem interpolate_charges_rejected_body :
    let files : Files := fun path => if path = ['k'] then .ok ['v'] else .error .notFound
    let included := '@' :: '{' :: Directive.scheme ++ ['k', '}']
    let text := '@' :: (['{', 'M', '['] ++ (included ++ [']', ' ', 'x', '}']))
    let once : List Inclusion := [⟨['k'], ['k']⟩]
    (∃ parts, Ledger files (Options.locate {}) (.text text) once once parts) ∧
    (interpolate files { includeLimit := 1 } text).result = .error (.tooManyInclusions 1) ∧
    (interpolate files { includeLimit := 2 } text).result =
      .ok (.literal ['@', '{', 'M', '[', 'v', ']', ' ', 'x', '}']) := by
  intro files included text once
  let braced := '{' :: Directive.scheme ++ ['k', '}']
  let body := ['{', 'M', '['] ++ (included ++ [']', ' ', 'x', '}'])
  let locate := Options.locate {}
  have key : Ledger files locate (.text included) once [] [.literal ['v']] :=
    .included (by decide : Directive.read braced = ⟨.inclusion ['k'], braced, []⟩) rfl
      (.character (by decide) .nil)
  have keys : Ledger files locate (.keys [⟨0, included⟩]) once [] [.literal ['v']] :=
    @Ledger.scannedKey files locate ⟨0, included⟩ [] once [] [] [] _ _ rfl key .noKeys
  have behind : Ledger files locate (.text ['v', ']', ' ', 'x', '}']) [] [] _ :=
    ledger_characters (by simp : ∀ c ∈ ['v', ']', ' ', 'x', '}'], c ≠ '@') .nil
  have spliced : Ledger files locate (.text (included ++ [']', ' ', 'x', '}'])) once [] _ :=
    .included (by decide : Directive.read (braced ++ [']', ' ', 'x', '}']) =
      ⟨.inclusion ['k'], braced, [']', ' ', 'x', '}']⟩) rfl behind
  have again : Ledger files locate (.text body) once [] _ :=
    ledger_characters (by simp : ∀ c ∈ ['{', 'M', '['], c ≠ '@') spliced
  have ledger : Ledger files locate (.text text) once once _ :=
    .rejected (by decide : Directive.read body =
      ⟨.rejected 2 (.lookup ['M'] [⟨0, included⟩]), [], body⟩) keys again
  have stopped := ((interpolate_charges files { includeLimit := 1 }).2.2 text once once _ ledger).2
    (by decide)
  have through := ((interpolate_charges files { includeLimit := 2 }).2.1 text _).mpr
    ⟨once, once, _, ledger, by decide, rfl⟩
  exact ⟨⟨_, ledger⟩, stopped, through⟩

end StackTemplate
