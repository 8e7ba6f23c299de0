import StackTemplate.Proofs.SafeCuts

/-! What files bring into keys stays in the keys. The outermost scan decides each of
its steps by the text in front of it, before any key is scanned: where an expression
ends, what it is called and how its brackets are cut into keys. So the steps can be
listed from the text alone, and every run that goes through fills the same frame. -/
namespace StackTemplate

open Directive (Key)

namespace Interpolation

/-- One step of a scan: a character that stands for itself, or a directive with the
text it takes after its `@`. -/
inductive Step where
  | character (c : Char)
  | directive (directive : Directive) (extent : Text)
  deriving DecidableEq, Repr

/-- The text that a step takes. -/
def Step.source : Step → Text
  | character c => [c]
  | directive _ extent => '@' :: extent

/-- Whether a step brings in a file. -/
def Step.Includes (step : Step) : Prop :=
  ∃ named extent, step = .directive (.inclusion named) extent

/-- The steps of a scan as the text alone decides them, up to the first that brings
in a file or fails. -/
def steps (text : Text) : List Step :=
  match text with
  | [] => []
  | c :: text =>
    if c ≠ '@' then .character c :: steps text
    else
      match _ : Directive.read text with
      | ⟨directive, extent, rest⟩ =>
        .directive directive extent :: if directive.yield?.isSome then steps rest else []
termination_by text.length
decreasing_by
  · exact Nat.lt_succ_self _
  · exact rest_shorter ‹_›

theorem steps_text {c : Char} (plain : c ≠ '@') (text : Text) :
    steps (c :: text) = .character c :: steps text := by
  rw [steps, if_pos plain]

theorem steps_directive {text extent rest : Text} {directive : Directive}
    (reading : Directive.read text = ⟨directive, extent, rest⟩) :
    steps ('@' :: text) =
      .directive directive extent :: if directive.yield?.isSome then steps rest else [] := by
  rw [steps, if_neg (by simp)]
  split
  next found =>
    cases reading.symm.trans found
    rfl

/-- A fragment that a key may come out as. Text that does not begin with an `@` is
taken as it is; any other key depends on what its scan brings in. -/
def KeyFits (key : Key) (found : Fragment) : Prop :=
  key.text.head? ≠ some '@' → found = .literal key.text

/-- A fragment that a step may put into the result, whatever its keys bring in. -/
inductive Step.Fits : Step → Fragment → Prop where
  | character (c : Char) : Fits (.character c) (.literal [c])
  | escape (extent : Text) : Fits (.directive .escape extent) (.literal ['@'])
  | plain (extent : Text) : Fits (.directive .plain extent) (.literal ['@'])
  | rejected (lead : Nat) (shape : Shape) (extent : Text) :
      Fits (.directive (.rejected lead shape) extent) (.literal ['@'])
  | reference (lead : Nat) (name extent : Text) :
      Fits (.directive (.expression lead (.reference name)) extent) (.reference name)
  | attributeOf (lead : Nat) (name path extent : Text) :
      Fits (.directive (.expression lead (.attributeOf name path)) extent) (.attributeOf name path)
  | lookup {keys : List Key} {found : List Fragment} (lead : Nat) (name extent : Text)
      (filled : List.Forall₂ KeyFits keys found) :
      Fits (.directive (.expression lead (.lookup name keys)) extent) (.ofKeys name found)

theorem Step.fits_yield {directive : Directive} {build : List Fragment → Fragment}
    (yields : directive.yield? = some build) (extent : Text) {found : List Fragment}
    (filled : List.Forall₂ KeyFits directive.keys found) :
    (Step.directive directive extent).Fits (build found) := by
  cases directive with
  | escape => cases yields; exact .escape extent
  | plain => cases yields; exact .plain extent
  | rejected lead shape => cases yields; exact .rejected lead shape extent
  | inclusion named => cases yields
  | unclosed delimiter offset => cases yields
  | expression lead shape =>
    cases yields
    cases shape with
    | reference name => exact .reference lead name extent
    | attributeOf name path => exact .attributeOf lead name path extent
    | lookup name keys => exact .lookup lead name extent filled

/-- The text is taken by its steps, and each step puts one fragment that fits it into
the result. -/
def Framed (text : Text) (parts : List Fragment) : Prop :=
  (steps text).flatMap Step.source = text ∧ List.Forall₂ Step.Fits (steps text) parts

/-- A scan that goes through without an inclusion of its own follows the steps of its
text, and keys come out one by one, whatever files either of them reads. -/
theorem scan_framed (files : Files) (options : Options) :
    (∀ used origin position text, ∀ inclusions events parts,
      scan files options used origin position text = ⟨inclusions, events, .ok parts⟩ →
      (∀ step ∈ steps text, ¬step.Includes) → Framed text parts) ∧
    ∀ used base keys, ∀ inclusions events found,
      scanKeys files options used base keys = ⟨inclusions, events, .ok found⟩ →
      List.Forall₂ KeyFits keys found := by
  apply scan_induction files options
  case nil =>
    intro used origin position inclusions events parts ran _
    rw [scan_nil] at ran
    cases ran
    simp [Framed, steps]
  case text =>
    intro used origin position c text plain ih inclusions events parts ran inKeys
    rw [scan_text plain] at ran
    obtain ⟨inner, inside, rfl⟩ := Run.map_eq_ok ran
    rw [steps_text plain] at inKeys
    obtain ⟨taken, fits⟩ := ih _ _ _ inside (List.forall_mem_cons.mp inKeys).2
    refine ⟨?_, ?_⟩
    · rw [steps_text plain, List.flatMap_cons, taken]
      rfl
    · rw [steps_text plain]
      exact .cons (.character c) fits
  case unclosed =>
    intro used origin position text delimiter offset extent rest reading inclusions events parts ran _
    rw [scan_unclosed reading] at ran
    cases ran
  case inclusion =>
    intro used origin position text named extent rest reading _ inclusions events parts _ inKeys
    rw [steps_directive reading] at inKeys
    exact absurd ⟨named, extent, rfl⟩ (inKeys _ List.mem_cons_self)
  case yields =>
    intro used origin position text directive extent rest build reading yields keys after
      inclusions events parts ran inKeys
    obtain ⟨read, told, found, later, laterTold, inner, keysRan, inside, _, _, rfl⟩ :=
      scan_yields_ok reading yields ran
    have listed : steps ('@' :: text) = .directive directive extent :: steps rest := by
      rw [steps_directive reading, yields]
      rfl
    rw [listed] at inKeys
    obtain ⟨taken, fits⟩ := after _ _ _ keysRan _ _ _ inside (List.forall_mem_cons.mp inKeys).2
    have whole := Directive.read_append text
    rw [reading] at whole
    refine ⟨?_, ?_⟩
    · rw [listed, List.flatMap_cons, taken, ← whole]
      rfl
    · rw [listed]
      exact .cons (Step.fits_yield yields extent (keys _ _ _ keysRan)) fits
  case noKeys =>
    intro used base inclusions events found ran
    rw [scanKeys_nil] at ran
    cases ran
    exact .nil
  case literalKey =>
    intro used base key more verbatim ih inclusions events found ran
    rw [scanKeys_literal verbatim] at ran
    obtain ⟨inner, inside, rfl⟩ := Run.map_eq_ok ran
    exact .cons (fun _ => rfl) (ih _ _ _ inside)
  case scannedKey =>
    intro used base key more isAt _ after inclusions events found ran
    obtain ⟨read, told, parts, later, laterTold, inner, keyRan, moreRan, _, _, rfl⟩ :=
      scanKeys_scanned_ok isAt ran
    exact .cons (fun verbatim => absurd isAt verbatim) (after _ _ _ keyRan _ _ _ moreRan)

end Interpolation

namespace Fragment

/-- Fragments alike in everything but what their keys are. -/
inductive SameFrame : Fragment → Fragment → Prop where
  | literal (text : Text) : SameFrame (literal text) (literal text)
  | reference (name : Text) : SameFrame (reference name) (reference name)
  | attributeOf (name path : Text) : SameFrame (attributeOf name path) (attributeOf name path)
  | lookup {keys keys' : List Fragment} (map : Text) (count : keys.length = keys'.length) :
      SameFrame (lookup map keys) (lookup map keys')

theorem sameFrame_ofKeys (name : Text) {keys keys' : List Fragment} (count : keys.length = keys'.length) :
    SameFrame (ofKeys name keys) (ofKeys name keys') := by
  match keys, keys', count with
  | [], [], _ => exact .lookup name rfl
  | [key], [key'], _ => exact .lookup (name ++ mapSuffix) rfl
  | first :: second :: more, first' :: second' :: more', count => exact .lookup name count

private theorem prepend_sameFrame {part part' : Fragment} {parts parts' : List Fragment}
    (same : SameFrame part part') (later : List.Forall₂ SameFrame parts parts') :
    List.Forall₂ SameFrame (prepend part parts) (prepend part' parts') := by
  cases same with
  | reference name => exact .cons (.reference name) later
  | attributeOf name path => exact .cons (.attributeOf name path) later
  | lookup map count => exact .cons (.lookup map count) later
  | literal text =>
    cases text with
    | nil => simpa using later
    | cons c text =>
      cases later with
      | nil => exact .cons (.literal _) .nil
      | cons first rest =>
        cases first with
        | literal next => exact .cons (.literal _) rest
        | reference name => exact .cons (.literal _) (.cons (.reference name) rest)
        | attributeOf name path => exact .cons (.literal _) (.cons (.attributeOf name path) rest)
        | lookup map count => exact .cons (.literal _) (.cons (.lookup map count) rest)

/-- Merging sequences of one frame gives sequences of one frame. -/
theorem merge_sameFrame {parts parts' : List Fragment} (same : List.Forall₂ SameFrame parts parts') :
    List.Forall₂ SameFrame (merge parts) (merge parts') := by
  induction same with
  | nil => exact .nil
  | cons here _ ih => exact prepend_sameFrame here ih

theorem letters_prepend (part : Fragment) (parts : List Fragment) :
    letters (prepend part parts) = letters [part] ++ letters parts := by
  obtain ⟨rfl, same⟩ | ⟨text, next, more, _, rfl, rfl, same⟩ | ⟨_, same⟩ := prepend_cases part parts
  · rw [same]
    rfl
  · simp [same, letters]
  · rw [same, ← letters_append]
    rfl

/-- Merging keeps the word. -/
theorem letters_merge (parts : List Fragment) : letters (merge parts) = letters parts := by
  induction parts with
  | nil => rfl
  | cons part parts ih =>
    rw [merge_cons, letters_prepend, ih, ← letters_append]
    rfl

end Fragment

namespace Interpolation
open Fragment

/-- What fits one step has one frame. -/
theorem Step.Fits.sameFrame {step : Step} {found found' : Fragment} (fits : step.Fits found)
    (fits' : step.Fits found') : SameFrame found found' := by
  cases fits with
  | character c => cases fits'; exact .literal [c]
  | escape extent => cases fits'; exact .literal ['@']
  | plain extent => cases fits'; exact .literal ['@']
  | rejected lead shape extent => cases fits'; exact .literal ['@']
  | reference lead name extent => cases fits'; exact .reference name
  | attributeOf lead name path extent => cases fits'; exact .attributeOf name path
  | lookup lead name extent filled =>
    cases fits' with
    | lookup _ _ _ filled' =>
      exact sameFrame_ofKeys name (filled.length_eq.symm.trans filled'.length_eq)

/-- What fits a step is one letter. -/
theorem Step.Fits.letters_cons {step : Step} {found : Fragment} (fits : step.Fits found)
    (parts : List Fragment) : letters (found :: parts) = found :: letters parts := by
  cases fits with
  | @lookup keys found lead name extent filled =>
    match found with
    | [] => rfl
    | [key] => rfl
    | first :: second :: more => rfl
  | _ => rfl

theorem sameFrame_of_fits {listed : List Step} {parts parts' : List Fragment}
    (fits : List.Forall₂ Step.Fits listed parts) (fits' : List.Forall₂ Step.Fits listed parts') :
    List.Forall₂ SameFrame parts parts' := by
  induction fits generalizing parts' with
  | nil =>
    cases fits'
    exact .nil
  | cons here _ ih =>
    cases fits' with
    | cons here' later' => exact .cons (here.sameFrame here') (ih later')

theorem letters_of_fits {listed : List Step} {parts : List Fragment}
    (fits : List.Forall₂ Step.Fits listed parts) : letters parts = parts := by
  induction fits with
  | nil => rfl
  | cons here _ ih => rw [here.letters_cons, ih]

end Interpolation

open Interpolation Fragment

/-- A text that brings in no file outside its keys is taken by its steps, and its
fragment has one letter for each of them. -/
theorem interpolate_framed {files : Files} {options : Options} {text : Text} {value : Fragment}
    (ran : (interpolate files options text).result = .ok value)
    (inKeys : ∀ step ∈ steps text, ¬step.Includes) :
    ∃ parts, Framed text parts ∧ pieces value = merge parts ∧ letters (pieces value) = parts := by
  obtain ⟨events, parts, rfl, scanned⟩ := interpolate_ok ran
  have framed := (scan_framed files options).1 _ _ _ _ _ _ _ scanned inKeys
  have merged := pieces_collapse ((scan_unjoined files options).1 _ _ _ _ _ _ _ scanned)
  refine ⟨parts, framed, merged, ?_⟩
  rw [merged, letters_merge, letters_of_fits framed.2]

/-- Files brought into keys cannot change the structure around them. Of two runs that
go through on one text, with no inclusion outside its keys, both list the same parts:
text is the same, and expressions differ in nothing but keys. Both follow the steps
that the text alone decides, so an expression ends in the same place, and a key whose
source does not begin with an `@` is that source in both. -/
theorem interpolate_sameFrame {files files' : Files} {options options' : Options} {text : Text}
    {value value' : Fragment} (ran : (interpolate files options text).result = .ok value)
    (ran' : (interpolate files' options' text).result = .ok value')
    (inKeys : ∀ step ∈ steps text, ¬step.Includes) :
    List.Forall₂ SameFrame (pieces value) (pieces value') ∧
    (steps text).flatMap Step.source = text ∧
    List.Forall₂ Step.Fits (steps text) (letters (pieces value)) ∧
    List.Forall₂ Step.Fits (steps text) (letters (pieces value')) := by
  obtain ⟨parts, ⟨taken, fits⟩, merged, listed⟩ := interpolate_framed ran inKeys
  obtain ⟨parts', ⟨_, fits'⟩, merged', listed'⟩ := interpolate_framed ran' inKeys
  refine ⟨?_, taken, listed ▸ fits, listed' ▸ fits'⟩
  rw [merged, merged']
  exact merge_sameFrame (sameFrame_of_fits fits fits')

/-- A file with a comma and closers, and one with an expression, in a key between two
others; the text behind the brackets is the same. -/
theorem interpolate_sameFrame_delimiters_in_file :
    let text := '@' :: 'M' :: '[' :: 'k' :: ',' :: '@' :: Directive.scheme ++ ['f', ']', '!']
    let files : Files := fun _ => .ok ['@', 'A', ',', ']', '}']
    let files' : Files := fun _ => .ok ['@', 'B']
    ∃ key key',
      (interpolate files {} text).result =
        .ok (.join [.lookup ['M'] [.literal ['k'], key], .literal ['!']]) ∧
      (interpolate files' { baseDir := some ['d'] } text).result =
        .ok (.join [.lookup ['M'] [.literal ['k'], key'], .literal ['!']]) ∧
      List.Forall₂ SameFrame [.lookup ['M'] [.literal ['k'], key], .literal ['!']]
        [.lookup ['M'] [.literal ['k'], key'], .literal ['!']] := by
  intro text files files'
  have ran : (interpolate files {} text).result = .ok (.join [.lookup ['M'] [.literal ['k'],
      .join [.reference ['A'], .literal [',', ']', '}']]], .literal ['!']]) := by cbv
  have ran' : (interpolate files' { baseDir := some ['d'] } text).result =
      .ok (.join [.lookup ['M'] [.literal ['k'], .reference ['B']], .literal ['!']]) := by cbv
  have listed : steps text = [.directive (.expression 1 (.lookup ['M']
      [⟨0, ['k']⟩, ⟨2, '@' :: Directive.scheme ++ ['f']⟩]))
      ('M' :: '[' :: 'k' :: ',' :: '@' :: Directive.scheme ++ ['f', ']']), .character '!'] := by cbv
  have inKeys : ∀ step ∈ steps text, ¬step.Includes := by
    rw [listed]
    simp [Step.Includes]
  exact ⟨_, _, ran, ran', (interpolate_sameFrame ran ran' inKeys).1⟩

end StackTemplate
