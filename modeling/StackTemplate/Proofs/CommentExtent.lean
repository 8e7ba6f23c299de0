import Mathlib
import StackTemplate.Comment

/-! What is a comment is said of places in the text: a literal opens at a quote, and a
comment at two slashes, that lie in no literal and no comment. Stripping goes through
the text once with a scope in hand; the scope is right at every place, so each line is
cut at its first comment and no line is lost. -/
namespace StackTemplate

namespace Text

/-- The lines of a text, without the line ends between them. -/
def lines (text : Text) : List Text :=
  text.splitOn '\n'

/-- The place at which the line with index `k` starts. -/
def lineStart (text : Text) (k : Nat) : Nat :=
  (((lines text).take k).map fun line => line.length + 1).sum

theorem lines_lineEnd (text : Text) : lines ('\n' :: text) = [] :: lines text := by
  simp [lines, List.splitOn_cons_eq_if_modifyHead]

theorem lines_cons {c : Char} (inLine : c ≠ '\n') {text line : Text} {more : List Text}
    (listed : lines text = line :: more) : lines (c :: text) = (c :: line) :: more := by
  rw [lines] at listed ⊢
  simp [List.splitOn_cons_eq_if_modifyHead, inLine, listed]

theorem exists_lines (text : Text) : ∃ line more, lines text = line :: more :=
  List.exists_cons_of_ne_nil (List.splitOn_ne_nil '\n' text)

theorem length_lines (text : Text) : (lines text).length = lineEnds text + 1 := by
  induction text with
  | nil => rfl
  | cons c text ih =>
    by_cases ended : c = '\n'
    · subst ended
      rw [lines_lineEnd, List.length_cons, ih, lineEnds, lineEnds, List.count_cons_self]
    · obtain ⟨line, more, listed⟩ := exists_lines text
      rw [lines_cons ended listed, lineEnds, List.count_cons_of_ne ended]
      rwa [listed] at ih

/-- A text is known by its lines. -/
theorem lines_injective {text other : Text} (same : lines text = lines other) : text = other := by
  have joined (text : Text) : ['\n'].intercalate (lines text) = text := List.intercalate_splitOn '\n'
  rw [← joined text, ← joined other, same]

end Text

namespace Comment

/-- The character at a place of the literal that opens at `start` is escaped: right
before it, inside the literal, stands a backslash that is not escaped itself. -/
def Escaped (text : Text) (start : Nat) : Nat → Prop
  | 0 => False
  | place + 1 => start < place ∧ text[place]? = some '\\' ∧ ¬Escaped text start place

/-- What hides the characters in it from being read as code. -/
inductive Kind where
  | literal
  | comment
  deriving DecidableEq, Repr

/-- A literal opens at a quote, a comment at two slashes. -/
def Kind.Opens (text : Text) (start : Nat) : Kind → Prop
  | .literal => text[start]? = some '"'
  | .comment => text[start]? = some '/' ∧ text[start + 1]? = some '/'

/-- A literal ends at a quote that is not escaped, a comment at a line end. -/
def Kind.Ends (text : Text) (start stop : Nat) : Kind → Prop
  | .literal => text[stop]? = some '"' ∧ ¬Escaped text start stop
  | .comment => text[stop]? = some '\n'

/-- A place outside every literal and comment: whatever opens before it, at a place
that is outside itself, has its end before it. -/
def Free (text : Text) (place : Nat) : Prop :=
  ∀ kind : Kind, ∀ start, ∀ _ : start < place, kind.Opens text start → Free text start →
    ∃ stop, start < stop ∧ stop < place ∧ kind.Ends text start stop
termination_by place

/-- A place in the literal or comment that opens at `start`, up to its end. -/
structure Within (kind : Kind) (text : Text) (start place : Nat) : Prop where
  before : start < place
  opens : kind.Opens text start
  free : Free text start
  goesOn : ∀ stop, start < stop → stop < place → ¬kind.Ends text start stop

/-- A place in a literal. -/
def InLiteral (text : Text) (place : Nat) : Prop :=
  ∃ start, Within .literal text start place

/-- Two slashes outside every literal. -/
def Begins (text : Text) (place : Nat) : Prop :=
  Kind.comment.Opens text place ∧ ¬InLiteral text place

variable {text rest : Text} {kind kind' : Kind} {start start' place : Nat} {c : Char}

theorem Kind.opens_unique (opens : kind.Opens text start) (opens' : kind'.Opens text start) :
    kind = kind' := by
  cases kind <;> cases kind'
  · rfl
  · cases opens.symm.trans opens'.1
  · cases opens'.symm.trans opens.1
  · rfl

theorem free_iff : Free text place ↔ ∀ kind start, ¬Within kind text start place := by
  rw [Free]
  constructor
  · rintro ended kind start ⟨before, opens, free, goesOn⟩
    obtain ⟨stop, behind, ahead, ends⟩ := ended kind start before opens free
    exact goesOn stop behind ahead ends
  · intro outside kind start before opens free
    by_contra never
    exact outside kind start ⟨before, opens, free, fun stop behind ahead ends =>
      never ⟨stop, behind, ahead, ends⟩⟩

theorem Within.upTo (within : Within kind text start place) {earlier : Nat} (after : start < earlier)
    (upTo : earlier ≤ place) : Within kind text start earlier :=
  { within with
    before := after
    goesOn := fun stop behind ahead => within.goesOn stop behind (by omega) }

theorem Within.not_free (within : Within kind text start place) : ¬Free text place := fun free =>
  free_iff.mp free kind start within

/-- A place lies in one literal or comment at most. -/
theorem Within.unique (within : Within kind text start place)
    (within' : Within kind' text start' place) : kind = kind' ∧ start = start' := by
  rcases Nat.lt_trichotomy start start' with less | rfl | more
  · exact absurd within'.free (within.upTo less (Nat.le_of_lt within'.before)).not_free
  · exact ⟨Kind.opens_unique within.opens within'.opens, rfl⟩
  · exact absurd within.free (within'.upTo more (Nat.le_of_lt within.before)).not_free

theorem Free.opens (free : Free text place) (opens : kind.Opens text place) :
    Within kind text place (place + 1) :=
  ⟨Nat.lt_succ_self place, opens, free, fun _ behind ahead => by omega⟩

/-- A place is free behind a free one at which nothing opens. -/
theorem Free.next (free : Free text place) (quiet : ∀ kind : Kind, ¬kind.Opens text place) :
    Free text (place + 1) := by
  refine free_iff.mpr fun kind start within => ?_
  rcases Nat.lt_succ_iff_lt_or_eq.mp within.before with before | rfl
  · exact (within.upTo before (Nat.le_succ place)).not_free free
  · exact quiet kind within.opens

theorem Within.next (within : Within kind text start place) (goesOn : ¬kind.Ends text start place) :
    Within kind text start (place + 1) := by
  refine { within with before := Nat.lt_succ_of_lt within.before, goesOn := ?_ }
  intro stop behind ahead
  rcases Nat.lt_succ_iff_lt_or_eq.mp ahead with earlier | rfl
  · exact within.goesOn stop behind earlier
  · exact goesOn

/-- A place is free behind the end of a literal or comment. -/
theorem Within.ended (within : Within kind text start place) (ends : kind.Ends text start place) :
    Free text (place + 1) := by
  refine free_iff.mpr fun kind' start' within' => ?_
  rcases Nat.lt_succ_iff_lt_or_eq.mp within'.before with before | rfl
  · obtain ⟨rfl, rfl⟩ := within.unique (within'.upTo before (Nat.le_succ place))
    exact within'.goesOn place before (Nat.lt_succ_self place) ends
  · exact within.not_free within'.free

theorem not_begins_of_ne (other : text[place]? ≠ some '/') : ¬Begins text place :=
  fun begins => other begins.1.1

/-- What a scope says of the place it is reached at. -/
def Stands (text : Text) (place : Nat) : Scope → Prop
  | .code => Free text place
  | .string => ∃ start, Within .literal text start place ∧ ¬Escaped text start place
  | .escape => ∃ start, Within .literal text start place ∧ Escaped text start place
  | .comment => ∃ start, Within .comment text start place

/-- What becomes of the character at a place that is reached with a scope, and what
that means for the place. -/
inductive Fate (text : Text) (place : Nat) (scope : Scope) (c : Char) (rest : Text) : Prop where
  | kept (next : Scope) (same : stripFrom scope (c :: rest) = c :: stripFrom next rest)
      (stands : Stands text (place + 1) next) (clear : ¬Begins text place)
      (shown : next ≠ .comment) (ended : scope = .comment → c = '\n')
  | dropped (same : stripFrom scope (c :: rest) = stripFrom .comment rest)
      (stands : Stands text (place + 1) .comment) (inLine : c ≠ '\n')
      (begins : scope ≠ .comment → Begins text place)

/-- Every character is kept or dropped, and its place bears out why. -/
theorem fate {scope : Scope} (stands : Stands text place scope) (here : text.drop place = c :: rest) :
    Fate text place scope c rest := by
  obtain ⟨isHere, after⟩ := Text.drop_cons here
  have nextHere : text[place + 1]? = rest.head? := by rw [← after, List.head?_drop]
  cases scope with
  | code =>
    by_cases quoted : c = '"'
    · subst quoted
      exact .kept .string rfl ⟨place, stands.opens isHere, by simp [Escaped]⟩
        (not_begins_of_ne (by simp [isHere])) (by simp) (by simp)
    · by_cases slashes : Kind.comment.Opens text place
      · obtain ⟨rfl⟩ : c = '/' := by simpa [isHere] using slashes.1
        obtain ⟨more, rfl⟩ := List.head?_eq_some_iff.mp (nextHere.symm.trans slashes.2)
        have outside : ¬InLiteral text place := fun ⟨start, within⟩ => within.not_free stands
        exact .dropped (by rw [stripFrom, stripFrom_comment (by decide)]) ⟨place, stands.opens slashes⟩
          (by decide) fun _ => ⟨slashes, outside⟩
      · have quiet : ∀ kind : Kind, ¬kind.Opens text place := by
          rintro (_ | _)
          · simp [Kind.Opens, isHere, quoted]
          · exact slashes
        refine .kept .code (stripFrom_code quoted fun slash next => slashes ?_) (stands.next quiet)
          (fun begins => slashes begins.1) (by simp) (by simp)
        exact ⟨by rw [isHere, slash], by rw [nextHere, next]⟩
  | string =>
    obtain ⟨start, within, plain⟩ := stands
    have clear : ¬Begins text place := fun begins => begins.2 ⟨start, within⟩
    by_cases backslash : c = '\\'
    · subst backslash
      have goesOn := within.next (by simp [Kind.Ends, isHere])
      exact .kept .escape rfl ⟨start, goesOn, within.before, isHere, plain⟩ clear (by simp) (by simp)
    · by_cases quoted : c = '"'
      · subst quoted
        exact .kept .code rfl (within.ended ⟨isHere, plain⟩) clear (by simp) (by simp)
      · have goesOn := within.next (by simp [Kind.Ends, isHere, quoted])
        refine .kept .string (stripFrom_string backslash quoted rest) ⟨start, goesOn, ?_⟩ clear
          (by simp) (by simp)
        simp [Escaped, isHere, backslash]
  | escape =>
    obtain ⟨start, within, escaped⟩ := stands
    have goesOn := within.next fun ends => ends.2 escaped
    exact .kept .string (by rw [stripFrom]) ⟨start, goesOn, fun again => again.2.2 escaped⟩
      (fun begins => begins.2 ⟨start, within⟩) (by simp) (by simp)
  | comment =>
    obtain ⟨start, within⟩ := stands
    by_cases lineEnd : c = '\n'
    · subst lineEnd
      exact .kept .code rfl (within.ended isHere) (not_begins_of_ne (by simp [isHere])) (by simp)
        fun _ => rfl
    · have goesOn := within.next (by simp [Kind.Ends, isHere, lineEnd])
      exact .dropped (stripFrom_comment lineEnd rest) ⟨start, goesOn⟩ lineEnd (by simp)

/-- What is kept of a line that starts at `start`: all of it, or what stands before its
first two slashes outside every literal. -/
structure Cut (text : Text) (start : Nat) (line kept : Text) : Prop where
  front : kept <+: line
  clear : ∀ column < kept.length, ¬Begins text (start + column)
  stops : kept = line ∨ Begins text (start + kept.length)

/-- Lines from the place `start` on, each with what is kept of it. -/
inductive CutLines (text : Text) : Nat → List Text → List Text → Prop where
  | nil (start : Nat) : CutLines text start [] []
  | cons {start : Nat} {line kept : Text} {lines keeps : List Text} (cut : Cut text start line kept)
      (later : CutLines text (start + (line.length + 1)) lines keeps) :
      CutLines text start (line :: lines) (kept :: keeps)

theorem CutLines.length_eq {lines keeps : List Text} (cut : CutLines text start lines keeps) :
    keeps.length = lines.length := by
  induction cut with
  | nil start => rfl
  | cons cut later ih => rw [List.length_cons, List.length_cons, ih]

theorem CutLines.get {lines keeps : List Text} (cut : CutLines text start lines keeps) {k : Nat}
    {line : Text} (listed : lines[k]? = some line) :
    ∃ kept, keeps[k]? = some kept ∧
      Cut text (start + ((lines.take k).map fun line => line.length + 1).sum) line kept := by
  induction cut generalizing k with
  | nil start => cases listed
  | @cons start first kept lines keeps cut later ih =>
    cases k with
    | zero =>
      cases listed
      exact ⟨kept, rfl, cut⟩
    | succ k =>
      obtain ⟨kept, there, cutThere⟩ := ih listed
      refine ⟨kept, there, ?_⟩
      rwa [List.take_succ_cons, List.map_cons, List.sum_cons, ← Nat.add_assoc]

/-- A kept character stands at the front of what is kept of its line. -/
theorem Cut.cons {line kept : Text} (cut : Cut text (place + 1) line kept) (clear : ¬Begins text place)
    (c : Char) : Cut text place (c :: line) (c :: kept) where
  front := List.cons_prefix_cons.mpr ⟨rfl, cut.front⟩
  clear := by
    rintro (_ | column) inKept
    · exact clear
    · rw [Nat.add_comm column 1, ← Nat.add_assoc]
      exact cut.clear column (Nat.lt_of_succ_lt_succ inKept)
  stops := by
    rw [List.length_cons, Nat.add_comm kept.length 1, ← Nat.add_assoc]
    exact cut.stops.imp_left fun whole => by rw [whole]

/-- From a place reached with the right scope on, every later line is cut at its first
comment, and so is the rest of the line at hand unless it lies in a comment already.
Each character moves the place on by one, whether it is kept or dropped. -/
theorem stripFrom_cut {scope : Scope} (stands : Stands text place scope)
    (here : text.drop place = rest) :
    ∃ line kept more keeps, Text.lines rest = line :: more ∧
      Text.lines (stripFrom scope rest) = kept :: keeps ∧
      CutLines text (place + (line.length + 1)) more keeps ∧
      (scope = .comment → kept = []) ∧ (scope ≠ .comment → Cut text place line kept) := by
  induction rest generalizing place scope with
  | nil =>
    have nothing : stripFrom scope [] = [] := by rw [stripFrom]
    refine ⟨[], [], [], [], rfl, by rw [nothing]; rfl, .nil _, fun _ => rfl, fun _ => ?_⟩
    exact ⟨List.prefix_refl [], by simp, .inl rfl⟩
  | cons c rest ih =>
    have after := (Text.drop_cons here).2
    have ahead (line : Text) : place + 1 + (line.length + 1) = place + ((c :: line).length + 1) := by
      rw [List.length_cons]
      omega
    cases fate stands here with
    | kept next same stands clear shown ended =>
      obtain ⟨line, kept, more, keeps, listed, listedKept, later, _, cut⟩ := ih stands after
      rw [same]
      by_cases lineEnd : c = '\n'
      · subst lineEnd
        refine ⟨[], [], _, _, Text.lines_lineEnd rest, Text.lines_lineEnd _, ?_, fun _ => rfl,
          fun _ => ⟨List.prefix_refl [], by simp, .inl rfl⟩⟩
        rw [listed, listedKept]
        exact .cons (cut shown) later
      · refine ⟨c :: line, c :: kept, more, keeps, Text.lines_cons lineEnd listed,
          Text.lines_cons lineEnd listedKept, ?_, fun commented => absurd (ended commented) lineEnd,
          fun _ => (cut shown).cons clear c⟩
        exact (ahead line) ▸ later
    | dropped same stands inLine begins =>
      obtain ⟨line, kept, more, keeps, listed, listedKept, later, hidden, _⟩ := ih stands after
      obtain rfl := hidden rfl
      rw [same]
      refine ⟨c :: line, [], more, keeps, Text.lines_cons inLine listed, listedKept, ?_, fun _ => rfl,
        fun shown => ⟨List.nil_prefix, by simp, .inr (begins shown)⟩⟩
      exact (ahead line) ▸ later

theorem stands_start (text : Text) : Stands text 0 .code :=
  free_iff.mpr fun _ start within => absurd within.before (Nat.not_lt_zero start)

theorem strip_cutLines (text : Text) : CutLines text 0 (Text.lines text) (Text.lines (strip text)) := by
  obtain ⟨line, kept, more, keeps, listed, listedKept, later, _, cut⟩ :=
    @stripFrom_cut text text 0 .code (stands_start text) rfl
  rw [strip, listed, listedKept]
  exact .cons (cut (by simp)) (Nat.zero_add _ ▸ later)

/-- Stripping cuts every line at its first comment and keeps all lines. A comment is
found at two slashes outside every literal; a literal opens at a quote outside literals
and comments and ends at the next quote that is not escaped, on whatever line. -/
theorem strip_lines (text : Text) :
    Text.lineEnds (strip text) = Text.lineEnds text ∧
    ∀ k line, (Text.lines text)[k]? = some line →
      ∃ kept, (Text.lines (strip text))[k]? = some kept ∧ Cut text (Text.lineStart text k) line kept := by
  constructor
  · have same := (strip_cutLines text).length_eq
    rwa [Text.length_lines, Text.length_lines, Nat.succ_inj] at same
  · intro k line there
    obtain ⟨kept, thereKept, cut⟩ := (strip_cutLines text).get there
    rw [Nat.zero_add] at cut
    exact ⟨kept, thereKept, cut⟩

end Comment

end StackTemplate
