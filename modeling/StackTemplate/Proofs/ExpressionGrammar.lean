import StackTemplate.Proofs.DirectiveExtent

/-! The grammar of expressions. A name stands alone, goes on with a path behind a dot, or
has keys between brackets. What is found in a text is always of the grammar, and a body
in braces is an expression from end to end exactly when the grammar says so. -/
namespace StackTemplate.Directive

section Names

variable {name : Text}

theorem IsName.splitName_append (named : IsName name) {tail : Text} (stops : continuesName tail = false) :
    splitName (name ++ tail) = (name, tail) := by
  have split := named.2
  have extended := splitName_extend tail named.1 (by rwa [split])
  rwa [split] at extended

theorem IsName.head (named : IsName name) : ∃ c rest, name = c :: rest ∧ isNameStart c = true := by
  obtain ⟨c, tail, whole, start, _⟩ := isName_iff.mp named
  exact ⟨c, tail, whole, start⟩

private theorem IsName.not_schemed (named : IsName name) {tail : Text}
    (stops : continuesName tail = false) (colonless : ∀ c ∈ tail.head?, c ≠ ':') :
    Text.after? scheme (name ++ tail) = none := by
  cases found : Text.after? scheme (name ++ tail) with
  | none => rfl
  | some rest =>
    have whole := Text.after?_eq_some found
    have split := named.splitName_append stops
    have schemed : splitName (scheme ++ rest) = (['f', 'i', 'l', 'e'], ':' :: '/' :: '/' :: rest) := by
      simp [scheme, splitName, splitNameTail, isNameStart, isNameChar]
    rw [whole, schemed] at split
    cases split
    exact absurd rfl (colonless ':' rfl)

/-- A body that starts with a name and does not go on with a colon names no file. -/
theorem IsName.not_file (named : IsName name) {tail : Text} (stops : continuesName tail = false)
    (colonless : ∀ c ∈ tail.head?, c ≠ ':') : delimitedPath? (name ++ tail) = none := by
  rw [delimitedPath?, named.not_schemed stops colonless]

/-- Nor does such a text without braces. -/
theorem IsName.not_greedy_file (named : IsName name) {tail : Text} (stops : continuesName tail = false)
    (colonless : ∀ c ∈ tail.head?, c ≠ ':') : greedyPath? (name ++ tail) = none := by
  rw [greedyPath?, named.not_schemed stops colonless]

/-- Nothing is trimmed off a body that starts with a name and ends in no blank. -/
theorem IsName.tight_append (named : IsName name) {tail : Text}
    (last : ∀ c ∈ tail.getLast?, Text.isBlank c = false) : Text.Tight (name ++ tail) := by
  have solid : ∀ c ∈ name, Text.isBlank c = false := by
    intro c member
    rw [← Bool.not_eq_true]
    intro blank
    rcases named.chars c member with nameChar | rfl
    · cases nameChar.symm.trans (isBlank_not_nameChar blank)
    · cases blank
  constructor
  · obtain ⟨c, rest, rfl, _⟩ := named.head
    simpa using solid c (by simp)
  · intro c found
    rw [List.getLast?_append, Option.mem_def, Option.or_eq_some_iff] at found
    rcases found with after | ⟨_, own⟩
    · exact last c after
    · exact solid c (List.mem_of_getLast? own)

end Names

section Found

variable {mode : Mode} {name : Text}

theorem find_reference (named : IsName name) :
    findExpression mode name = .expression (.reference name) name [] := by
  have split := named.2
  simp [findExpression, split, named.1]

theorem find_attribute (named : IsName name) {path : Text} (full : path ≠ []) :
    findExpression .delimited (name ++ '.' :: path) =
      .expression (.attributeOf name path) (name ++ '.' :: path) [] := by
  have split := named.splitName_append (by rfl : continuesName ('.' :: path) = false)
  simp [findExpression, split, named.1, findAttribute, full]

theorem find_lookup (named : IsName name) {inside : Text} (balanced : Balanced .bracket inside)
    (full : ∀ key ∈ splitKeys inside, key.text ≠ []) :
    findExpression mode (name ++ '[' :: inside ++ [']']) =
      .expression (.lookup name (splitKeys inside)) (name ++ '[' :: inside ++ [']']) [] := by
  have split := named.splitName_append (by rfl : continuesName ('[' :: (inside ++ [']'])) = false)
  have closed : enclosed .bracket (inside ++ [']']) = some (inside, []) := enclosed_balanced balanced []
  have noneBlank : (splitKeys inside).any (·.text.isEmpty) = false := by
    simpa using full
  simp [findExpression, split, named.1, findLookup, closed, noneBlank]

end Found

/-- Names: a letter or `_`, then letters, digits and `_`, with `::` in front of some. -/
inductive NameWord : Text → Prop where
  | intro {c : Char} {tail : Text} (start : isNameStart c = true) (later : NameTail tail) :
      NameWord (c :: tail)

/-- Paths without braces: characters of a path, the last of them no dot. -/
structure DottedPath (path : Text) : Prop where
  full : path ≠ []
  chars : ∀ c ∈ path, isPathChar c = true
  last : ∀ c ∈ path.getLast?, c ≠ '.'

/-- What an attribute has behind its dot. In braces that is any text. -/
def Mode.Path : Mode → Text → Prop
  | .greedy, path => DottedPath path
  | .delimited, path => path ≠ []

/-- A name by itself, or with a path behind a dot. -/
inductive Dotted (mode : Mode) : Shape → Text → Prop where
  | reference {name : Text} (named : NameWord name) : Dotted mode (.reference name) name
  | attributeOf {name path : Text} (named : NameWord name) (leads : mode.Path path) :
      Dotted mode (.attributeOf name path) (name ++ '.' :: path)

/-- A name with keys between brackets that match. No piece between the commas is blank. -/
inductive Bracketed : Shape → Text → Prop where
  | lookup {name inside : Text} (named : NameWord name) (closed : Balanced .bracket inside)
      (full : ∀ piece ∈ cutAtCommas 0 inside, ∃ c ∈ piece, Text.isBlank c = false) :
      Bracketed (.lookup name (splitKeys inside)) (name ++ '[' :: inside ++ [']'])

/-- Texts that are one expression from end to end. -/
def Written (mode : Mode) (shape : Shape) (text : Text) : Prop :=
  Dotted mode shape text ∨ Bracketed shape text

theorem nameWord_iff {text : Text} : NameWord text ↔ IsName text := by
  rw [isName_iff]
  constructor
  · rintro ⟨start, later⟩
    exact ⟨_, _, rfl, start, later⟩
  · rintro ⟨c, tail, rfl, start, later⟩
    exact .intro start later

/-- Every path without braces can stand in braces. -/
theorem Mode.Path.delimited {mode : Mode} {path : Text} (leads : mode.Path path) :
    Mode.delimited.Path path := by
  cases mode with
  | greedy => exact leads.full
  | delimited => exact leads

/-- Every expression can stand in braces. -/
theorem Written.delimited {mode : Mode} {shape : Shape} {text : Text} (written : Written mode shape text) :
    Written .delimited shape text := by
  rcases written with dotted | bracketed
  · cases dotted with
    | reference named => exact .inl (.reference named)
    | attributeOf named leads => exact .inl (.attributeOf named leads.delimited)
  · exact .inr bracketed

private theorem trim_ne_nil_iff {piece : Text} :
    Text.trim piece ≠ [] ↔ ∃ c ∈ piece, Text.isBlank c = false := by
  obtain ⟨trail, whole, blankBefore, blankAfter⟩ := Text.exists_padding piece
  constructor
  · intro full
    obtain ⟨c, rest, begins⟩ := List.exists_cons_of_ne_nil full
    have first := (Text.tight_trim piece).1 c (by simp [begins])
    exact ⟨c, (Text.trim_isInfix piece).subset (by simp [begins]), first⟩
  · rintro ⟨c, member, solid⟩ empty
    rw [whole, empty, List.append_nil] at member
    rcases List.mem_append.mp member with front | back
    · cases solid.symm.trans (blankBefore c front)
    · cases solid.symm.trans (blankAfter c back)

private theorem keys_full_iff {inside : Text} :
    (∀ key ∈ splitKeys inside, key.text ≠ []) ↔
      ∀ piece ∈ cutAtCommas 0 inside, ∃ c ∈ piece, Text.isBlank c = false := by
  have listed : (∀ text ∈ (splitKeys inside).map Key.text, text ≠ []) ↔
      ∀ text ∈ (cutAtCommas 0 inside).map Text.trim, text ≠ [] := by
    rw [texts_splitKeys]
  simpa only [List.forall_mem_map, trim_ne_nil_iff] using listed

theorem splitPath_dotted {tail : Text} (full : (splitPath tail).1 ≠ []) :
    DottedPath (splitPath tail).1 := by
  refine ⟨full, fun c member => pathChar_of_mem_splitPath member, fun c last => ?_⟩
  have stops := List.head?_dropWhile_not (· == '.') (tail.takeWhile isPathChar).reverse
  simp only [splitPath, List.getLast?_reverse, Option.mem_def] at last
  rw [last] at stops
  simpa using stops

private theorem findAttribute_path {mode : Mode} {name tail map path extent rest : Text}
    (found : findAttribute mode name tail = .expression (.attributeOf map path) extent rest) :
    mode.Path path := by
  cases mode with
  | greedy =>
    dsimp only [findAttribute] at found
    split at found
    · cases found
    · next full =>
      cases found
      exact splitPath_dotted (by simpa using full)
  | delimited =>
    dsimp only [findAttribute] at found
    split at found
    · cases found
    · next full =>
      cases found
      exact fun empty => full (by simp [empty])

/-- An attribute that is found has a path of its mode. -/
theorem findExpression_path {mode : Mode} {text name path extent rest : Text}
    (found : findExpression mode text = .expression (.attributeOf name path) extent rest) :
    mode.Path path := by
  unfold findExpression at found
  generalize splitName text = split at found
  obtain ⟨front, after⟩ := split
  dsimp only at found
  split at found
  · cases found
  · split at found
    · next inner =>
      unfold findLookup at found
      split at found
      · cases found
      · dsimp only at found
        split at found <;> cases found
    · exact findAttribute_path found
    · cases found

/-- What is found is of the grammar. -/
theorem findExpression_written {mode : Mode} {text taken rest : Text} {shape : Shape}
    (found : findExpression mode text = .expression shape taken rest) : Written mode shape taken := by
  cases findExpression_spells found with
  | reference named => exact .inl (.reference (nameWord_iff.mpr named))
  | attributeOf named plain =>
    exact .inl (.attributeOf (nameWord_iff.mpr named) (findExpression_path found))
  | lookup named closed full =>
    exact .inr (.lookup (nameWord_iff.mpr named) closed (keys_full_iff.mp full))

/-- What is of the grammar is found in braces, as a whole. -/
theorem Written.found {shape : Shape} {body : Text} (written : Written .delimited shape body) :
    findExpression .delimited body = .expression shape body [] := by
  rcases written with dotted | bracketed
  · cases dotted with
    | reference named => exact find_reference (nameWord_iff.mp named)
    | attributeOf named leads => exact find_attribute (nameWord_iff.mp named) leads
  · cases bracketed with
    | lookup named closed full =>
      exact find_lookup (nameWord_iff.mp named) closed (keys_full_iff.mpr full)

/-- What is of the grammar names no file. -/
theorem Written.not_file {mode : Mode} {shape : Shape} {text : Text} (written : Written mode shape text) :
    delimitedPath? text = none := by
  rcases written with dotted | bracketed
  · cases dotted with
    | reference named =>
      simpa using @IsName.not_file text (nameWord_iff.mp named) [] rfl (by simp)
    | attributeOf named leads => exact (nameWord_iff.mp named).not_file rfl (by simp)
  · cases bracketed with
    | lookup named closed full =>
      rw [List.append_assoc, List.cons_append]
      exact (nameWord_iff.mp named).not_file rfl (by simp)

/-- Without braces no expression has a blank at either end. -/
theorem Written.tight {shape : Shape} {text : Text} (written : Written .greedy shape text) :
    Text.Tight text := by
  rcases written with dotted | bracketed
  · cases dotted with
    | reference named => simpa using @IsName.tight_append text (nameWord_iff.mp named) [] (by simp)
    | @attributeOf name path named leads =>
      refine (nameWord_iff.mp named).tight_append fun c last => ?_
      have isPath : isPathChar c = true := by
        rcases List.mem_cons.mp (List.mem_of_getLast? last) with rfl | member
        · rfl
        · exact leads.chars c member
      rw [← Bool.not_eq_true]
      intro blank
      rcases Bool.or_eq_true_iff.mp isPath with nameChar | dot
      · cases nameChar.symm.trans (isBlank_not_nameChar blank)
      · cases (beq_iff_eq.mp dot) ▸ blank
  · cases bracketed with
    | lookup named closed full =>
      rw [List.append_assoc, List.cons_append]
      refine (nameWord_iff.mp named).tight_append fun c last => ?_
      rw [← List.cons_append, List.getLast?_concat] at last
      cases last
      rfl

/-- Without braces an expression is read where it is found, unless a file is named there. -/
theorem read_found {text extent rest : Text} {shape : Shape} {c : Char}
    (start : isNameStart c = true) (unnamed : greedyPath? (c :: text) = none)
    (found : findExpression .greedy (c :: text) = .expression shape extent rest) :
    read (c :: text) = ⟨.expression 1 shape, extent, rest⟩ := by
  obtain ⟨notAt, notBrace⟩ := isNameStart_unsigned start
  simp [read, readGreedy, notAt, notBrace, start, unnamed, found]

/-- A delimited body that is one expression between blanks is read as that expression. -/
theorem read_padded {before body after taken : Text} {shape : Shape}
    (blankBefore : ∀ c ∈ before, Text.isBlank c = true)
    (blankAfter : ∀ c ∈ after, Text.isBlank c = true) (balanced : Balanced .brace body)
    (tight : Text.Tight body) (found : findExpression .delimited body = .expression shape taken [])
    (rest : Text) :
    read ('{' :: (before ++ body ++ after) ++ '}' :: rest) =
      ⟨.expression (2 + Text.byteLength before) shape, '{' :: (before ++ body ++ after) ++ ['}'],
        rest⟩ := by
  have whole := (findExpression_fits found).1
  rw [List.append_nil] at whole
  have notFile : delimitedPath? body = none := whole ▸ (findExpression_written found).not_file
  have rawBalanced : Balanced .brace (before ++ body ++ after) :=
    (((Nested.of_blank blankBefore).balanced _).append balanced).append
      ((Nested.of_blank blankAfter).balanced _)
  have trimmed := Text.trim_padded blankBefore tight blankAfter
  have lead : Text.leadingBlanks (before ++ body ++ after) = before := by
    cases body with
    | nil => cases found
    | cons c body =>
      rw [List.append_assoc]
      exact Text.leadingBlanks_append blankBefore (by simpa using tight.1)
  generalize before ++ body ++ after = raw at rawBalanced trimmed lead ⊢
  have closed := enclosed_balanced rawBalanced rest
  simp only [Delimiter.closer] at closed
  simp [read, readDelimited, closed, trimmed, lead, notFile, found]

/-- A delimited body that is one expression is read as that expression. -/
theorem read_expression {body taken : Text} {shape : Shape} (balanced : Balanced .brace body)
    (tight : Text.Tight body) (found : findExpression .delimited body = .expression shape taken [])
    (rest : Text) :
    read ('{' :: body ++ '}' :: rest) = ⟨.expression 2 shape, '{' :: body ++ ['}'], rest⟩ := by
  simpa using @read_padded [] body [] taken shape (by simp) (by simp) balanced tight found rest

end StackTemplate.Directive
