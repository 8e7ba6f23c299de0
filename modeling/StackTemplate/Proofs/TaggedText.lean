import StackTemplate.Proofs.BalancedText
import StackTemplate.Proofs.ScanSteps

/-! Text in which every character carries the input offset it stands for. A key is
a stretch of the text around it and keeps its tags, and the content of a file
takes the tag of its directive; no position is ever computed. The positions that
reading a directive does compute lead to the same tags. -/
namespace StackTemplate

/-- A text whose characters carry an input offset. -/
abbrev Tagged := List (Char × Nat)

namespace Tagged

/-- The characters without their tags. -/
def text (buffer : Tagged) : Text :=
  buffer.map Prod.fst

/-- A text that starts at a byte position, tagged by what positions stand for. -/
def ofText (place : Nat → Nat) (position : Nat) : Text → Tagged
  | [] => []
  | c :: rest => (c, place position) :: ofText place (position + c.utf8Size) rest

/-- The stretch that trimming leaves. -/
def trim (buffer : Tagged) : Tagged :=
  (buffer.drop (Text.leadingBlanks buffer.text).length).take (Text.trim buffer.text).length

/-- The stretches of consecutive pieces with one character between them. -/
def deal : List Text → Tagged → List Tagged
  | [], _ => []
  | piece :: pieces, buffer => buffer.take piece.length :: deal pieces (buffer.drop (piece.length + 1))

/-- The stretch that holds the expression of a directive: the trimmed inside of
braces, or all that follows the `@`. -/
def body : Tagged → Tagged
  | ('{', _) :: inner =>
    match Directive.enclosed .brace (text inner) with
    | some (raw, _) => trim (inner.take raw.length)
    | none => inner
  | buffer => buffer

/-- What follows the name at the front. -/
def afterName (buffer : Tagged) : Tagged :=
  buffer.drop (Directive.splitName buffer.text).1.length

/-- The stretches of the keys between the brackets after a name. -/
def keys (buffer : Tagged) : List Tagged :=
  let inner := buffer.afterName.drop 1
  match Directive.enclosed .bracket (text inner) with
  | some (inside, _) => (deal (Directive.cutAtCommas 0 inside) (inner.take inside.length)).map trim
  | none => []

variable {place : Nat → Nat} {position : Nat}

theorem ofText_at (text : Text) :
    ofText place position ('@' :: text) = ('@', place position) :: ofText place (position + 1) text :=
  rfl

@[simp] theorem text_ofText (text : Text) : (ofText place position text).text = text := by
  induction text generalizing position with
  | nil => rfl
  | cons c rest ih =>
    have later := @ih (position + c.utf8Size)
    simp only [Tagged.text] at later
    simp [ofText, Tagged.text, later]

@[simp] theorem length_ofText (text : Text) : (ofText place position text).length = text.length := by
  have same := congrArg List.length (@text_ofText place position text)
  simpa [Tagged.text] using same

theorem ofText_append (first second : Text) :
    ofText place position (first ++ second) =
      ofText place position first ++ ofText place (position + Text.byteLength first) second := by
  induction first generalizing position with
  | nil => simp [ofText]
  | cons c first ih => simp [ofText, ih, Nat.add_assoc]

theorem take_ofText (first second : Text) :
    (ofText place position (first ++ second)).take first.length = ofText place position first := by
  rw [ofText_append, List.take_left' (length_ofText first)]

theorem drop_ofText (first second : Text) :
    (ofText place position (first ++ second)).drop first.length =
      ofText place (position + Text.byteLength first) second := by
  rw [ofText_append, List.drop_left' (length_ofText first)]

theorem ofText_congr {place' : Nat → Nat} {position' : Nat}
    (same : ∀ k, place (position + k) = place' (position' + k)) (text : Text) :
    ofText place position text = ofText place' position' text := by
  induction text generalizing position position' with
  | nil => rfl
  | cons c rest ih =>
    have first : place position = place' position' := same 0
    have later := @ih (position + c.utf8Size) (position' + c.utf8Size) fun k => by
      simpa [Nat.add_assoc] using same (c.utf8Size + k)
    simp [ofText, first, later]

theorem ofText_const {tag : Nat} {text : Text}
    (same : ∀ k < Text.byteLength text, place (position + k) = tag) :
    ofText place position text = text.map fun c => (c, tag) := by
  induction text generalizing position with
  | nil => rfl
  | cons c rest ih =>
    have first : place position = tag := same 0 (by have := c.utf8Size_pos; simp; omega)
    have later := @ih (position + c.utf8Size) fun k inside => by
      simpa [Nat.add_assoc] using same (c.utf8Size + k) (by simp; omega)
    simp [ofText, first, later]

/-- After an inclusion the content carries the tag of the directive's `@`, and
what followed the directive the tags it had. -/
theorem ofText_splice (origin : Origin) (start : Nat) (extent content rest : Text) :
    ofText (fun k => place ((origin.splice start (start + 1 + Text.byteLength extent)
        (Text.byteLength content)).offset k)) 0 (content ++ rest) =
      content.map (fun c => (c, place (origin.offset start))) ++
        ofText (fun k => place (origin.offset k)) (start + 1 + Text.byteLength extent) rest := by
  have forward : start < start + 1 + Text.byteLength extent := by omega
  rw [ofText_append]
  congr 1
  · refine ofText_const fun k inside => ?_
    rw [Origin.offset_splice _ forward, if_pos (by omega)]
  · refine ofText_congr (fun k => ?_) rest
    rw [Origin.offset_splice _ forward, if_neg (by omega)]
    congr 2
    omega

theorem trim_ofText (text : Text) :
    trim (ofText place position text) =
      ofText place (position + Text.byteLength (Text.leadingBlanks text)) (Text.trim text) := by
  obtain ⟨trail, whole, _, _⟩ := Text.exists_padding text
  unfold trim
  rw [text_ofText]
  generalize Text.leadingBlanks text = lead at whole ⊢
  generalize Text.trim text = kept at whole ⊢
  rw [whole, List.append_assoc, drop_ofText, take_ofText]

theorem deal_ofText (pieces : List Text) (start : Nat) :
    (deal pieces (ofText place (position + start) ([','].intercalate pieces))).map trim =
      (Directive.keysFrom start pieces).map fun key => ofText place (position + key.offset) key.text := by
  induction pieces generalizing start with
  | nil => rfl
  | cons piece pieces ih =>
    cases pieces with
    | nil =>
      have all : (ofText place (position + start) piece).take piece.length =
          ofText place (position + start) piece := by
        simp [List.take_of_length_le]
      simp [deal, Directive.keysFrom, List.intercalate, all, trim_ofText, Nat.add_assoc]
    | cons next pieces =>
      have whole : [','].intercalate (piece :: next :: pieces) =
          piece ++ [','] ++ [','].intercalate (next :: pieces) := by simp [List.intercalate]
      have width : piece.length + 1 = (piece ++ [',']).length := by simp
      have comma : Text.byteLength [','] = 1 := by decide
      rw [deal, width, whole, drop_ofText, List.append_assoc, take_ofText, Directive.keysFrom,
        List.map_cons, List.map_cons, trim_ofText, Text.byteLength_append, comma, Nat.add_assoc,
        Nat.add_assoc, ih]
      simp [Nat.add_assoc]

theorem drop_read {text extent rest : Text} {directive : Directive}
    (reading : Directive.read text = ⟨directive, extent, rest⟩) :
    (ofText place position text).drop extent.length =
      ofText place (position + Text.byteLength extent) rest := by
  have whole := Directive.read_append text
  rw [reading] at whole
  rw [← whole, drop_ofText]

theorem afterName_ofText {text name rest : Text} (split : Directive.splitName text = (name, rest)) :
    afterName (ofText place position text) =
      ofText place (position + Text.byteLength name) rest := by
  have whole := Directive.splitName_append text
  unfold afterName
  rw [text_ofText]
  rw [split] at whole ⊢
  rw [← whole, drop_ofText]

theorem keys_ofText {text name inner inside rest : Text}
    (split : Directive.splitName text = (name, '[' :: inner))
    (closed : Directive.enclosed .bracket inner = some (inside, rest)) :
    keys (ofText place position text) =
      (Directive.splitKeys inside).map fun key =>
        ofText place (position + Text.byteLength name + 1 + key.offset) key.text := by
  have bracket : Char.utf8Size '[' = 1 := by decide
  have dealt := @deal_ofText place (position + Text.byteLength name + 1)
    (Directive.cutAtCommas 0 inside) 0
  rw [Directive.intercalate_cutAtCommas, Nat.add_zero] at dealt
  have stretch : (ofText place (position + Text.byteLength name + 1) inner).take inside.length =
      ofText place (position + Text.byteLength name + 1) inside := by
    rw [Directive.enclosed_append closed, take_ofText]
  unfold keys
  rw [afterName_ofText split, ofText, bracket, List.drop_one, List.tail_cons]
  simp only [text_ofText, closed, stretch, dealt, Directive.splitKeys]

end Tagged

namespace Directive

private theorem body_delimited {inner raw rest : Text} (closed : enclosed .brace inner = some (raw, rest))
    (place : Nat → Nat) (position : Nat) :
    Tagged.body (Tagged.ofText place (position + 1) ('{' :: inner)) =
      Tagged.ofText place (position + (2 + Text.byteLength (Text.leadingBlanks raw))) (Text.trim raw) := by
  have brace : Char.utf8Size '{' = 1 := by decide
  have stretch : (Tagged.ofText place (position + 1 + 1) inner).take raw.length =
      Tagged.ofText place (position + 1 + 1) raw := by
    rw [enclosed_append closed, Tagged.take_ofText]
  simp only [Tagged.ofText, Tagged.body, brace, Tagged.text_ofText, closed, stretch, Tagged.trim_ofText]
  congr 1
  omega

private theorem body_greedy {c : Char} (start : isNameStart c = true) (text : Text)
    (place : Nat → Nat) (position : Nat) :
    Tagged.body (Tagged.ofText place position (c :: text)) =
      Tagged.ofText place position (c :: text) := by
  simp only [Tagged.ofText]
  unfold Tagged.body
  split
  · next same =>
    cases same
    cases start
  · rfl

/-- Where a directive's expression was found: `lead` bytes after the `@`, in the
stretch that holds it. -/
theorem read_body {text extent rest : Text} {directive : Directive}
    (reading : read text = ⟨directive, extent, rest⟩)
    (looked : (∃ offset, directive = .unclosed .bracket offset) ∨ directive.shape? ≠ none) :
    ∃ mode lead body,
      (∀ place position, Tagged.body (Tagged.ofText place (position + 1) text) =
        Tagged.ofText place (position + lead) body) ∧
      ((∃ offset, directive = .unclosed .bracket (lead + offset) ∧
          findExpression mode body = .unclosed offset) ∨
        ∃ shape taken after, (directive = .expression lead shape ∨ directive = .rejected lead shape) ∧
          findExpression mode body = .expression shape taken after) := by
  have excluded : directive ≠ .escape ∧ directive ≠ .plain ∧ directive ≠ .unclosed .brace 0 ∧
      ∀ named, directive ≠ .inclusion named := by
    refine ⟨?_, ?_, ?_, fun named => ?_⟩
    all_goals
      rintro rfl
      simp [shape?] at looked
  unfold read at reading
  split at reading
  · cases reading
    exact absurd rfl excluded.2.1
  · next c inner =>
    split at reading
    · cases reading
      exact absurd rfl excluded.1
    · split at reading
      · next brace =>
        subst brace
        unfold readDelimited at reading
        split at reading
        · cases reading
          exact absurd rfl excluded.2.2.1
        · next raw after closed =>
          refine ⟨.delimited, _, _, body_delimited closed, ?_⟩
          dsimp only at reading
          split at reading
          · cases reading
            exact absurd rfl (excluded.2.2.2 _)
          · split at reading
            · cases reading
              exact absurd rfl excluded.2.1
            · next offset found =>
              cases reading
              exact .inl ⟨offset, rfl, found⟩
            · next shape taken found =>
              cases reading
              exact .inr ⟨shape, taken, [], .inl rfl, found⟩
            · next shape taken d tail found =>
              cases reading
              exact .inr ⟨shape, taken, d :: tail, .inr rfl, found⟩
      · split at reading
        · next start =>
          refine ⟨.greedy, 1, c :: inner, fun place position => body_greedy start inner _ _, ?_⟩
          unfold readGreedy at reading
          split at reading
          · cases reading
            exact absurd rfl (excluded.2.2.2 _)
          · split at reading
            · cases reading
              exact absurd rfl excluded.2.1
            · next offset found =>
              cases reading
              exact .inl ⟨offset, rfl, found⟩
            · next shape taken after found =>
              cases reading
              exact .inr ⟨shape, _, _, .inl rfl, found⟩
        · cases reading
          exact absurd rfl excluded.2.1

/-- A bracket is reported at the byte where it stands. -/
theorem read_unclosed_bracket {text extent rest : Text} {offset : Nat}
    (reading : read text = ⟨.unclosed .bracket offset, extent, rest⟩) :
    ∃ inner, enclosed .bracket inner = none ∧ ∀ place position,
      Tagged.afterName (Tagged.body (Tagged.ofText place (position + 1) text)) =
        Tagged.ofText place (position + offset) ('[' :: inner) := by
  obtain ⟨mode, lead, body, stands, ⟨inner, same, found⟩ | ⟨shape, _, _, same, _⟩⟩ :=
    read_body reading (.inl ⟨offset, rfl⟩)
  · cases same
    obtain ⟨name, inner, split, notClosed, rfl⟩ := findExpression_unclosed found
    refine ⟨inner, notClosed, fun place position => ?_⟩
    rw [stands, Tagged.afterName_ofText split, Nat.add_assoc]
  · rcases same with same | same <;> cases same

/-- Keys are scanned where they stand. -/
theorem read_keys {text extent rest name : Text} {directive : Directive} {keys : List Key}
    (reading : read text = ⟨directive, extent, rest⟩)
    (shaped : directive.shape? = some (.lookup name keys)) (place : Nat → Nat) (position : Nat) :
    Tagged.keys (Tagged.body (Tagged.ofText place (position + 1) text)) =
      directive.keys.map fun key =>
        Tagged.ofText place (position + directive.keysStart + key.offset) key.text := by
  obtain ⟨mode, lead, body, stands, ⟨inner, rfl, _⟩ | ⟨shape, taken, after, same, found⟩⟩ :=
    read_body reading (.inr (by simp [shaped]))
  · cases shaped
  · obtain rfl : shape = .lookup name keys := by
      rcases same with rfl | rfl <;> cases shaped <;> rfl
    obtain ⟨inner, inside, split, closed, rfl, _⟩ := findExpression_lookup found
    rw [stands, Tagged.keys_ofText split closed]
    rcases same with rfl | rfl <;>
      simp [Directive.keys, Directive.keysStart, Shape.keys, Shape.keysOffset, Nat.add_assoc]

end Directive

/-- The character at a byte offset of a text. -/
def Text.At (text : Text) (offset : Nat) (c : Char) : Prop :=
  ∃ before after, text = before ++ c :: after ∧ Text.byteLength before = offset

theorem Text.At.lt {text : Text} {offset : Nat} {c : Char} (stands : text.At offset c) :
    offset < Text.byteLength text := by
  obtain ⟨before, after, rfl, rfl⟩ := stands
  have positive := c.utf8Size_pos
  simp only [Text.byteLength_append, Text.byteLength_cons]
  omega

namespace Tagged

/-- Every tag leads to its own character in the input, or to an `@`. -/
def Anchored (input : Text) (buffer : Tagged) : Prop :=
  ∀ c tag, (c, tag) ∈ buffer → input.At tag c ∨ input.At tag '@'

theorem Anchored.mono {input : Text} {buffer part : Tagged} (anchored : Anchored input buffer)
    (inside : part ⊆ buffer) : Anchored input part :=
  fun c tag member => anchored c tag (inside member)

theorem anchored_ofText {input before text : Text} (whole : input = before ++ text) :
    Anchored input (ofText id (Text.byteLength before) text) := by
  induction text generalizing before with
  | nil =>
    intro c tag member
    cases member
  | cons c text ih =>
    have later := @ih (before ++ [c]) (by simp [whole])
    intro d tag member
    rw [ofText] at member
    rcases List.mem_cons.mp member with same | member
    · cases same
      exact .inl ⟨before, text, whole, rfl⟩
    · exact later d tag (by simpa using member)

theorem trim_subset (buffer : Tagged) : trim buffer ⊆ buffer :=
  fun _ member => List.mem_of_mem_drop (List.mem_of_mem_take member)

theorem body_subset (buffer : Tagged) : body buffer ⊆ buffer := by
  unfold body
  split
  · split
    · intro pair member
      exact List.mem_cons_of_mem _ (List.mem_of_mem_take (trim_subset _ member))
    · exact fun _ => List.mem_cons_of_mem _
  · exact fun _ => id

theorem afterName_subset (buffer : Tagged) : afterName buffer ⊆ buffer :=
  fun _ => List.mem_of_mem_drop

theorem deal_subset (pieces : List Text) (buffer : Tagged) : ∀ piece ∈ deal pieces buffer, piece ⊆ buffer := by
  induction pieces generalizing buffer with
  | nil => simp [deal]
  | cons piece pieces ih =>
    refine List.forall_mem_cons.mpr ⟨fun _ => List.mem_of_mem_take, fun later member => ?_⟩
    exact fun pair inside => List.mem_of_mem_drop (ih _ later member inside)

theorem keys_subset (buffer : Tagged) : ∀ key ∈ keys buffer, key ⊆ buffer := by
  unfold keys
  dsimp only
  split
  · intro key member pair inside
    obtain ⟨piece, dealt, rfl⟩ := List.mem_map.mp member
    have held := deal_subset _ _ piece dealt (trim_subset piece inside)
    exact afterName_subset buffer (List.mem_of_mem_drop (List.mem_of_mem_take held))
  · simp

end Tagged

end StackTemplate
