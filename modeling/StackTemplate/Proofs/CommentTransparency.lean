import StackTemplate.Document
import StackTemplate.Proofs.CommentExtent
import StackTemplate.Proofs.JsonLayout

/-! Comments between the tokens of a document are as good as line ends. Stripping and a reader
that goes by tokens agree where every literal of an accepted text ends, so stripping finds
nothing in it, finds every comment put in between its tokens, and leaves a loosened text. -/
namespace StackTemplate

namespace Comment

open Json (isWordChar LiteralBody Loosens Passes)

/-- A comment up to the end of its line. -/
def note (body : Text) : Text :=
  '/' :: '/' :: body ++ ['\n']

/-- Whether the character before a place belongs to a number or a keyword. -/
def wordBefore (text : Text) : Nat → Bool
  | 0 => false
  | place + 1 => text[place]?.any isWordChar

/-- A place between tokens: it lies in no literal and cuts no number or keyword in two. -/
structure Between (text : Text) (place : Nat) : Prop where
  outside : ¬InLiteral text place
  uncut : wordBefore text place = true → ∀ c ∈ text[place]?, isWordChar c = false

/-- Comments to put in between the tokens of a text: for each place, the bodies of the
ones that go before the character there. -/
structure Commentary (text : Text) where
  notes : Nat → List Text
  between : ∀ place, notes place ≠ [] → Between text place
  inLine : ∀ place, ∀ body ∈ notes place, '\n' ∉ body

/-- The rest of a text from a place on, with comments put in. -/
def annotateFrom (notes : Nat → List Text) : Nat → Text → Text
  | place, [] => (notes place).flatMap note
  | place, c :: rest => (notes place).flatMap note ++ c :: annotateFrom notes (place + 1) rest

/-- The text with its comments put in. -/
def Commentary.annotated {text : Text} (commentary : Commentary text) : Text :=
  annotateFrom commentary.notes 0 text

variable {text part body rest : Text} {place start : Nat} {c : Char}

theorem stripFrom_note (inLine : '\n' ∉ body) (rest : Text) :
    stripFrom .code (note body ++ rest) = '\n' :: stripFrom .code rest := by
  have through : stripFrom .comment (body ++ '\n' :: rest) = '\n' :: stripFrom .code rest := by
    induction body with
    | nil => rfl
    | cons c body ih =>
      rw [List.mem_cons, not_or] at inLine
      rw [List.cons_append, stripFrom_comment (Ne.symm inLine.1)]
      exact ih inLine.2
  simpa [note, stripFrom] using through

theorem stripFrom_notes {bodies : List Text} (inLine : ∀ body ∈ bodies, '\n' ∉ body) (rest : Text) :
    stripFrom .code (bodies.flatMap note ++ rest) =
      List.replicate bodies.length '\n' ++ stripFrom .code rest := by
  induction bodies with
  | nil => rfl
  | cons body bodies ih =>
    rw [List.forall_mem_cons] at inLine
    rw [List.flatMap_cons, List.append_assoc, stripFrom_note inLine.1, ih inLine.2]
    rfl

theorem stripFrom_literal (closed : LiteralBody body) (rest : Text) :
    stripFrom .string (body ++ '"' :: rest) = body ++ '"' :: stripFrom .code rest := by
  induction closed with
  | nil => rfl
  | plain unquoted unescaped _ ih =>
    rw [List.cons_append, stripFrom_string unescaped unquoted, ih, List.cons_append]
  | escaped c _ ih =>
    rw [List.cons_append, List.cons_append, stripFrom, stripFrom, ih]
    rfl

/-- The body of a literal leads on through the literal, up to a place that is not escaped. -/
theorem Within.through (closed : LiteralBody body) (within : Within .literal text start place)
    (plain : ¬Escaped text start place) (here : text.drop place = body ++ rest) :
    Within .literal text start (place + body.length) ∧ ¬Escaped text start (place + body.length) := by
  induction closed generalizing place with
  | nil => exact ⟨within, plain⟩
  | @plain c body unquoted unescaped _ ih =>
    obtain ⟨isHere, after⟩ := Text.drop_cons here
    have goesOn := within.next (by simp [Kind.Ends, isHere, unquoted])
    rw [List.length_cons, Nat.add_comm body.length 1, ← Nat.add_assoc]
    exact ih goesOn (by simp [Escaped, isHere, unescaped]) after
  | @escaped c body _ ih =>
    obtain ⟨isHere, after⟩ := Text.drop_cons here
    have escaped : Escaped text start (place + 1) := ⟨within.before, isHere, plain⟩
    have goesOn := within.next (by simp [Kind.Ends, isHere])
    have beyond := goesOn.next fun ends => ends.2 escaped
    rw [List.length_cons, List.length_cons, Nat.add_comm (body.length + 1) 1,
      Nat.add_comm body.length 1, ← Nat.add_assoc, ← Nat.add_assoc]
    exact ih beyond (fun again => again.2.2 escaped) (Text.drop_cons after).2

/-- A character that opens nothing leads from a free place to a free one. -/
theorem Free.pastCharacter (free : Free text place) (here : text.drop place = c :: rest)
    (unquoted : c ≠ '"') (unslashed : c ≠ '/') : Free text (place + 1) := by
  have isHere := (Text.drop_cons here).1
  refine free.next ?_
  rintro (_ | _)
  · simp [Kind.Opens, isHere, unquoted]
  · simp [Kind.Opens, isHere, unslashed]

theorem drop_literal (here : text.drop place = '"' :: body ++ '"' :: rest) :
    text.drop (place + 1 + body.length) = '"' :: rest := by
  rw [← List.drop_drop, (Text.drop_cons here).2]
  exact List.drop_left

/-- A literal lies between a free place and the next one. -/
theorem Free.pastLiteral (free : Free text place) (closed : LiteralBody body)
    (here : text.drop place = '"' :: body ++ '"' :: rest) :
    Free text (place + 1 + body.length + 1) ∧
      ∀ later, place < later → later ≤ place + 1 + body.length → InLiteral text later := by
  obtain ⟨isHere, after⟩ := Text.drop_cons here
  have opened : Within .literal text place (place + 1) := free.opens isHere
  obtain ⟨within, plain⟩ := opened.through closed (by simp [Escaped]) after
  have ends := (Text.drop_cons (drop_literal here)).1
  exact ⟨within.ended ⟨ends, plain⟩, fun later behind upTo => ⟨place, within.upTo behind upTo⟩⟩

theorem le_length_of_drop_cons (here : text.drop place = c :: rest) : place + 1 ≤ text.length :=
  (List.getElem?_eq_some_iff.mp (Text.drop_cons here).1).1

/-- What leads past whole literals and no slash ends outside of literals. -/
theorem Free.past (free : Free text place) (passes : Passes part rest) (here : text.drop place = part)
    (upTo : place ≤ text.length) : Free text (text.length - rest.length) := by
  induction passes generalizing place with
  | refl part => rwa [← here, List.length_drop, Nat.sub_sub_self upTo]
  | character unquoted unslashed _ ih =>
    exact ih (free.pastCharacter here unquoted unslashed) (Text.drop_cons here).2
      (le_length_of_drop_cons here)
  | literal closed _ ih =>
    have ends := drop_literal here
    exact ih (free.pastLiteral closed here).1 (Text.drop_cons ends).2 (le_length_of_drop_cons ends)

theorem not_inLiteral_of_passes (passes : Passes text rest) :
    ¬InLiteral text (text.length - rest.length) := by
  rintro ⟨start, within⟩
  exact within.not_free (Free.past (stands_start text) passes rfl (Nat.zero_le _))

theorem stripFrom_passes (passes : Passes part []) : stripFrom .code part = part := by
  generalize ended : ([] : Text) = rest at passes
  induction passes with
  | refl part => rw [← ended, stripFrom]
  | character unquoted unslashed _ ih =>
    rw [stripFrom_code unquoted fun slash => absurd slash unslashed, ih ended]
  | literal closed _ ih => rw [List.cons_append, stripFrom, stripFrom_literal closed, ih ended]

/-- Where no comment goes in, characters stay next to each other. -/
theorem annotateFrom_append {notes : Nat → List Text}
    (quiet : ∀ later, place ≤ later → later < place + part.length → notes later = []) (rest : Text) :
    annotateFrom notes place (part ++ rest) = part ++ annotateFrom notes (place + part.length) rest := by
  induction part generalizing place with
  | nil => rfl
  | cons c part ih =>
    rw [List.length_cons, Nat.add_comm part.length 1, ← Nat.add_assoc] at quiet ⊢
    have first := quiet place (Nat.le_refl place) (by omega)
    have later := ih fun later behind => quiet later (Nat.le_of_succ_le behind)
    rw [List.cons_append, annotateFrom, first, later]
    rfl

namespace Commentary

variable (commentary : Commentary text)

/-- Comments put in at a place leave their line ends there. -/
theorem stripFrom_noted (here : text.drop place = part) {noted : Text}
    (later : Loosens (wordBefore text place) part (stripFrom .code noted)) :
    Loosens (wordBefore text place) part
      (stripFrom .code ((commentary.notes place).flatMap note ++ noted)) := by
  by_cases silent : commentary.notes place = []
  · rw [silent]
    exact later
  · have uncut := (commentary.between place silent).uncut
    rw [← List.head?_drop, here] at uncut
    rw [stripFrom_notes (commentary.inLine place)]
    exact later.lineEnds uncut (commentary.notes place).length

/-- A literal stays whole. -/
theorem annotateFrom_literal (free : Free text place) (closed : LiteralBody body)
    (here : text.drop place = '"' :: body ++ '"' :: rest) :
    annotateFrom commentary.notes (place + 1) (body ++ '"' :: rest) =
      body ++ '"' :: annotateFrom commentary.notes (place + 1 + body.length + 1) rest := by
  have quiet : ∀ later, place + 1 ≤ later → later < place + 1 + (body ++ ['"']).length →
      commentary.notes later = [] := by
    intro later behind upTo
    rw [List.length_append, List.length_singleton, ← Nat.add_assoc] at upTo
    by_contra noted
    exact (commentary.between later noted).outside
      ((free.pastLiteral closed here).2 later behind (Nat.le_of_lt_succ upTo))
  simpa [Nat.add_assoc] using annotateFrom_append quiet rest

/-- Stripping takes the comments out again, and with their line ends the text is no more
than loosened. The induction is on the way of the reader and not on that of stripping: it goes
from token to token, where comments may stand, and meets no slash that could join with the first
of a comment. -/
theorem stripFrom_loosens (passes : Passes part []) (here : text.drop place = part)
    (free : Free text place) :
    Loosens (wordBefore text place) part (stripFrom .code (annotateFrom commentary.notes place part)) := by
  generalize ended : ([] : Text) = rest at passes
  induction passes generalizing place with
  | refl part =>
    subst ended
    rw [annotateFrom, ← List.append_nil ((commentary.notes place).flatMap note)]
    exact commentary.stripFrom_noted here .nil
  | @character c part rest unquoted unslashed _ ih =>
    obtain ⟨isHere, after⟩ := Text.drop_cons here
    refine commentary.stripFrom_noted here ?_
    rw [stripFrom_code unquoted fun slash => absurd slash unslashed]
    have word : wordBefore text (place + 1) = isWordChar c := by simp [wordBefore, isHere]
    exact .character unquoted (word ▸ ih after (free.pastCharacter here unquoted unslashed) ended)
  | @literal body part rest closed _ ih =>
    rw [List.cons_append] at here ⊢
    refine commentary.stripFrom_noted here ?_
    have ends := drop_literal here
    have later := ih (Text.drop_cons ends).2 (free.pastLiteral closed here).1 ended
    have word : wordBefore text (place + 1 + body.length + 1) = false := by
      simp [wordBefore, (Text.drop_cons ends).1, isWordChar]
    rw [stripFrom, commentary.annotateFrom_literal free closed here, stripFrom_literal closed]
    exact .literal closed (word ▸ later)

end Commentary

/-- No slash stands right behind the blanks at the front of an accepted text. -/
theorem not_passes_slash {blanks : Text} (blank : ∀ c ∈ blanks, Text.isBlank c = true) :
    ¬Passes (blanks ++ '/' :: rest) [] := by
  induction blanks with
  | nil =>
    rintro (_ | ⟨_, unslashed, _⟩)
    exact unslashed rfl
  | cons c blanks ih =>
    rw [List.forall_mem_cons] at blank
    intro passes
    generalize whole : c :: blanks ++ '/' :: rest = text at passes
    cases passes with
    | refl => cases whole
    | character _ _ later =>
      cases whole
      exact ih blank.2 later
    | literal _ _ =>
      obtain ⟨rfl, _⟩ := List.cons.inj whole
      exact absurd blank.1 (by decide)

theorem leads_passes (passes : Passes text []) : leads text = false := by
  unfold leads
  split
  · next rest found =>
    have whole : Text.leadingBlanks text ++ '/' :: '/' :: rest = text := by
      rw [← found]
      exact List.takeWhile_append_dropWhile
    rw [← whole] at passes
    exact absurd passes (not_passes_slash fun c there => List.mem_takeWhile_imp there)
  · rfl

/-- A comment at the front is seen to be there. -/
theorem Commentary.leads_annotated (commentary : Commentary text) (first : commentary.notes 0 ≠ []) :
    leads commentary.annotated = true := by
  obtain ⟨body, bodies, listed⟩ := List.exists_cons_of_ne_nil first
  have opened : ∃ rest, commentary.annotated = '/' :: '/' :: rest := by
    unfold annotated
    cases text <;> exact ⟨_, by rw [annotateFrom, listed]; rfl⟩
  obtain ⟨rest, opened⟩ := opened
  rw [leads, opened]
  rfl

end Comment

namespace Document

/-- Comments are transparent to every reader that goes by tokens. A text that it accepts has
none, so it is read as it stands; and with comments put in between its tokens, the first of them
at the front, it is processed to the same value or error, through the same inclusions, with the
stripping told first. -/
theorem processSource_annotated {reader : Reader} (tokenwise : Json.Tokenwise reader) (files : Files)
    (options : Options) {text : Text} {value : Json.Value} (accepted : reader text = .ok value) :
    Comment.strip text = text ∧ source text = text ∧
    ∀ commentary : Comment.Commentary text, commentary.notes 0 ≠ [] →
      processSource reader files options commentary.annotated =
        (processSource reader files options text).after [] [.strippingComments] := by
  have passes := tokenwise.passes accepted
  have plain := Comment.leads_passes passes
  have unchanged : source text = text := if_neg (by simp [plain])
  refine ⟨Comment.stripFrom_passes passes, unchanged, fun commentary first => ?_⟩
  have leading := commentary.leads_annotated first
  have loosens : Json.Loosens false text (source commentary.annotated) := by
    rw [source, if_pos leading]
    exact commentary.stripFrom_loosens passes rfl (Comment.stands_start text)
  have direct : processSource reader files options text = process files options .plain value := by
    simp [processSource, unchanged, accepted, plain]
  rw [direct]
  simp [processSource, tokenwise.loosened accepted loosens, leading]

/-- A literal with an escaped quote and two slashes in it, and comments at the front, right
behind the literal and right behind the keyword. -/
def annotatedSlashes : Comment.Commentary "[\"\\\"//\",true]".toList where
  notes
    | 0 => ["say \"@".toList, []]
    | 7 => ["\\ //".toList]
    | 12 => ["@\x7b".toList]
    | _ => []
  between := by
    have literal : Json.LiteralBody ['\\', '"', '/', '/'] :=
      .escaped '"' (.plain (by decide) (by decide) (.plain (by decide) (by decide) .nil))
    have behind {rest : Text} (passes : Json.Passes ",true]".toList rest) :
        Json.Passes "[\"\\\"//\",true]".toList rest :=
      .character (by decide) (by decide) (.literal literal passes)
    intro place noted
    split at noted
    · exact ⟨Comment.not_inLiteral_of_passes (.refl _), by decide⟩
    · exact ⟨Comment.not_inLiteral_of_passes (behind (.refl _)), by decide⟩
    · have further : Json.Passes ",true]".toList "]".toList := by
        iterate 5 refine .character (by decide) (by decide) ?_
        exact .refl _
      exact ⟨Comment.not_inLiteral_of_passes (behind further), by rintro _ _ ⟨⟩; rfl⟩
    · exact absurd rfl noted
  inLine := by
    intro place
    split <;> decide

theorem processSource_annotated_slashes :
    let reader := Json.parse Json.documentDepth
    Json.Tokenwise reader ∧
      reader "[\"\\\"//\",true]".toList = .ok (.array [.string "\"//".toList, .boolean true]) ∧
      annotatedSlashes.annotated =
        "//say \"@\n//\n[\"\\\"//\"//\\ //\n,true//@\x7b\n]".toList ∧
      processSource reader (fun _ => .error .notFound) {} annotatedSlashes.annotated =
        (processSource reader (fun _ => .error .notFound) {} "[\"\\\"//\",true]".toList).after []
          [.strippingComments] := by
  intro reader
  have tokenwise : Json.Tokenwise reader := Json.tokenwise_parse Json.documentDepth
  have accepted : Json.parse Json.documentDepth "[\"\\\"//\",true]".toList =
      .ok (.array [.string "\"//".toList, .boolean true]) := by
    cbv
  refine ⟨tokenwise, accepted, rfl, ?_⟩
  exact (processSource_annotated tokenwise _ _ accepted).2.2 annotatedSlashes (by simp [annotatedSlashes])

end Document

end StackTemplate
