import Mathlib
import StackTemplate.Directive

/-! How far reading a directive looks. A delimited directive is settled by its
closer; a name or a path is settled by the character after it, and `::` by two
more. Text behind that never changes what was read. -/
namespace StackTemplate.Directive

/-- The text is empty or its first character is a blank. -/
def StartsBlank (text : Text) : Prop :=
  ∀ c ∈ text.head?, Text.isBlank c = true

instance (text : Text) : Decidable (StartsBlank text) :=
  decidable_of_iff (text.head?.all Text.isBlank = true) (by
    simp only [StartsBlank, Option.all_eq_true, Option.mem_def])

/-- Whether a name just read goes on into the text. -/
def continuesName : Text → Bool
  | [] => false
  | c :: rest =>
    isNameChar c || c == ':' && match rest with
      | d :: e :: _ => d == ':' && isNameChar e
      | _ => false

theorem isBlank_not_pathChar {c : Char} (blank : Text.isBlank c = true) : isPathChar c = false := by
  rw [← Bool.not_eq_true]
  intro path
  simp only [isPathChar, isNameChar, Char.isAlphanum, Char.isAlpha, Char.isUpper, Char.isLower,
    Char.isDigit, ge_iff_le, UInt32.le_iff_toNat_le, Bool.or_eq_true, Bool.and_eq_true,
    decide_eq_true_eq, beq_iff_eq, Char.reduceVal, UInt32.reduceToNat, Char.toNat_val] at path
  simp only [Text.isBlank, Bool.or_eq_true, Bool.and_eq_true, decide_eq_true_eq, beq_iff_eq] at blank
  rcases path with (((upper | lower) | digit) | rfl) | rfl
  · omega
  · omega
  · omega
  · simp at blank
  · simp at blank

theorem isBlank_not_nameChar {c : Char} (blank : Text.isBlank c = true) : isNameChar c = false := by
  have separates := isBlank_not_pathChar blank
  simp only [isPathChar, Bool.or_eq_false_iff] at separates
  exact separates.1

theorem isNameStart_nameChar {c : Char} (start : isNameStart c = true) : isNameChar c = true := by
  simp only [isNameStart, isNameChar, Char.isAlphanum, Bool.or_eq_true] at start ⊢
  exact start.imp_left .inl

theorem closing_extend {opener closer : Char} {depth : Nat} {text inside rest : Text}
    (closed : closing opener closer depth text = some (inside, rest)) (more : Text) :
    closing opener closer depth (text ++ more) = some (inside, rest ++ more) := by
  induction text generalizing depth inside with
  | nil => cases closed
  | cons c text ih =>
    have step {depth : Nat}
        (found : (closing opener closer depth text).map (enclose c) = some (inside, rest)) :
        (closing opener closer depth (text ++ more)).map (enclose c) = some (inside, rest ++ more) := by
      obtain ⟨⟨inner, tail⟩, here, same⟩ := Option.map_eq_some_iff.mp found
      cases same
      rw [ih here]
      rfl
    rw [List.cons_append, closing.eq_def]
    rw [closing.eq_def] at closed
    dsimp only at closed ⊢
    split at closed
    · next opens =>
      rw [if_pos opens]
      exact step closed
    · next plain =>
      rw [if_neg plain]
      split at closed
      · next closes =>
        rw [if_pos closes]
        cases depth with
        | zero =>
          cases closed
          rfl
        | succ depth => exact step closed
      · next inner =>
        rw [if_neg inner]
        exact step closed

theorem splitNameTail_stop {text : Text} (stops : continuesName text = false) :
    splitNameTail text = ([], text) := by
  unfold splitNameTail
  split
  · simp_all [continuesName]
  · simp_all [continuesName]
  · rfl

/-- A name is cut off where it cannot go on. -/
theorem continuesName_rest (text : Text) : continuesName (splitNameTail text).2 = false := by
  fun_induction splitNameTail text with
  | case1 c rest goesOn tail after split ih => simpa [split] using ih
  | case2 c rest stop =>
    have colon : isNameChar ':' = false := by decide
    simp [continuesName, stop, colon]
  | case3 c rest notColons goesOn tail after split ih => simpa [split] using ih
  | case4 c rest notColons stop =>
    cases rest with
    | nil => simp [continuesName, stop]
    | cons d rest =>
      cases rest with
      | nil => simp [continuesName, stop]
      | cons e rest =>
        have notJoined : c = ':' → d ≠ ':' := by
          rintro isColon rfl
          exact notColons e rest isColon rfl
        simp only [Bool.not_eq_true] at stop
        simp only [continuesName, stop, Bool.false_or, Bool.and_eq_false_imp, beq_iff_eq]
        exact fun first second => absurd second (notJoined first)
  | case5 => rfl

/-- A name is cut off alike when the text behind it grows without going on with it. -/
theorem splitNameTail_extend {text : Text} (more : Text)
    (stops : continuesName ((splitNameTail text).2 ++ more) = false) :
    splitNameTail (text ++ more) = ((splitNameTail text).1, (splitNameTail text).2 ++ more) := by
  fun_induction splitNameTail text with
  | case1 c rest goesOn tail after split ih =>
    rw [split] at ih
    simp [splitNameTail, goesOn, ih stops]
  | case2 c rest stop => exact splitNameTail_stop stops
  | case3 c rest notColons goesOn tail after split ih =>
    have distinct : c ≠ ':' := by
      rintro rfl
      cases goesOn
    rw [split] at ih
    rw [List.cons_append, splitNameTail.eq_2 c (rest ++ more) fun _ _ same => absurd same distinct]
    simp [goesOn, ih stops]
  | case4 c rest notColons stop => exact splitNameTail_stop stops
  | case5 => exact splitNameTail_stop stops

theorem splitName_extend {text : Text} (more : Text) (full : text ≠ [])
    (stops : continuesName ((splitName text).2 ++ more) = false) :
    splitName (text ++ more) = ((splitName text).1, (splitName text).2 ++ more) := by
  cases text with
  | nil => exact absurd rfl full
  | cons c text =>
    by_cases start : isNameStart c
    · simp only [splitName, start, ↓reduceIte, List.cons_append] at stops ⊢
      rw [splitNameTail_extend more stops]
    · simp [splitName, start]

/-- Nothing that was left over can join with the text put behind it: that text
starts with a blank, or an `@` stands between. -/
def Settled (rest more : Text) : Prop :=
  StartsBlank more ∨ '@' ∈ rest

theorem continuesName_settled {rest more : Text} (stops : continuesName rest = false)
    (settled : Settled rest more) : continuesName (rest ++ more) = false := by
  rcases settled with blank | isAt
  · have separates (c : Char) (first : more.head? = some c) : isNameChar c = false ∧ c ≠ ':' := by
      refine ⟨isBlank_not_nameChar (blank c first), ?_⟩
      rintro rfl
      cases blank _ first
    match rest, more with
    | [], [] => rfl
    | [], c :: more => simp [continuesName, separates c rfl]
    | [a], [] => simpa using stops
    | [a], c :: more => cases more <;> simp_all [continuesName]
    | [a, b], [] => simpa using stops
    | [a, b], c :: more => simp_all [continuesName]
    | a :: b :: c :: rest, more => simpa [continuesName] using stops
  · match rest with
    | [] => cases isAt
    | [a] =>
      obtain rfl := List.mem_singleton.mp isAt
      rfl
    | [a, b] =>
      simp only [List.mem_cons, List.not_mem_nil, or_false] at isAt
      rcases isAt with rfl | rfl
      · cases more <;> rfl
      · cases more <;> simpa [continuesName] using stops
    | a :: b :: c :: rest => simpa [continuesName] using stops

private theorem takeWhile_stops (keep : Char → Bool) {more : Text}
    (stops : ∀ c ∈ more.head?, keep c = false) : more.takeWhile keep = [] := by
  cases more with
  | nil => rfl
  | cons c more => rw [List.takeWhile_cons_of_neg (by simp [stops c rfl])]

/-- A path is cut off alike when settled text behind it grows. -/
theorem splitPath_extend {text : Text} (more : Text) (settled : Settled (splitPath text).2 more) :
    splitPath (text ++ more) = ((splitPath text).1, (splitPath text).2 ++ more) := by
  have whole := splitPath_append text
  have reach : (text ++ more).takeWhile isPathChar = text.takeWhile isPathChar := by
    rw [List.takeWhile_append]
    split
    · next all =>
      have kept : text.takeWhile isPathChar = text := (List.takeWhile_prefix _).eq_of_length all
      have stops : more.takeWhile isPathChar = [] := by
        refine takeWhile_stops _ fun c first => ?_
        rcases settled with blank | isAt
        · exact isBlank_not_pathChar (blank c first)
        · have inside : '@' ∈ text.takeWhile isPathChar := by
            rw [kept, ← whole]
            exact List.mem_append_right _ isAt
          cases List.all_eq_true.mp List.all_takeWhile _ inside
      rw [stops, List.append_nil, kept]
    · rfl
  have short : (splitPath text).1.length ≤ text.length := by
    have lengths := congrArg List.length whole
    simp only [List.length_append] at lengths
    omega
  have path : (splitPath (text ++ more)).1 = (splitPath text).1 := by
    simp only [splitPath, reach]
  have rest : (splitPath (text ++ more)).2 = (splitPath text).2 ++ more := by
    change (text ++ more).drop (splitPath (text ++ more)).1.length = _
    rw [path, List.drop_append_of_le_length short]
    rfl
  exact Prod.ext path rest

theorem after?_append (start rest : Text) : Text.after? start (start ++ rest) = some rest := by
  induction start with
  | nil => rfl
  | cons s start ih => simpa [Text.after?] using ih

private theorem after?_extend {start text rest : Text} (found : Text.after? start text = some rest)
    (more : Text) : Text.after? start (text ++ more) = some (rest ++ more) := by
  rw [Text.after?_eq_some found, List.append_assoc, after?_append]

/-- A text that is not yet a beginning only becomes one by growing if it was a
beginning cut short. -/
private theorem after?_cut_short {start text rest more : Text} (missing : Text.after? start text = none)
    (found : Text.after? start (text ++ more) = some rest) :
    ∃ c gap, start = text ++ c :: gap ∧ more.head? = some c := by
  have whole := Text.after?_eq_some found
  rcases List.append_eq_append_iff.mp whole with ⟨gap, shape, tail⟩ | ⟨gap, shape, _⟩
  · cases gap with
    | nil =>
      have itself := after?_append text []
      rw [List.append_nil] at shape itself
      rw [shape, itself] at missing
      cases missing
    | cons c gap => exact ⟨c, gap, shape, by simp [tail]⟩
  · rw [shape, after?_append] at missing
    cases missing

/-- Text that names no file still names none when it grows behind a blank or
holds a character that the scheme does not. -/
theorem greedyPath?_extend_none {text more : Text} (missing : greedyPath? text = none)
    (settled : StartsBlank more ∨ ∃ c ∈ text, c ∉ scheme) : greedyPath? (text ++ more) = none := by
  have schemeBlank : ∀ c ∈ scheme, Text.isBlank c = false := by simp [scheme, Text.isBlank]
  unfold greedyPath? at missing ⊢
  cases found : Text.after? scheme text with
  | none =>
    cases grown : Text.after? scheme (text ++ more) with
    | none => rfl
    | some rest =>
      obtain ⟨c, gap, shape, first⟩ := after?_cut_short found grown
      rcases settled with blank | ⟨other, inside, foreign⟩
      · have member : c ∈ scheme := by simp [shape]
        cases (schemeBlank c member).symm.trans (blank c first)
      · exact absurd (by simp [shape, inside]) foreign
  | some tail =>
    rw [after?_extend found]
    simp only [found] at missing
    have empty : tail.takeWhile (fun c => !Text.isBlank c) = [] := by simpa using missing
    cases tail with
    | nil =>
      rcases settled with blank | ⟨other, inside, foreign⟩
      · have stops := takeWhile_stops (fun c => !Text.isBlank c)
          (fun c (first : c ∈ more.head?) => by simp [blank c first])
        simp [stops]
      · rw [Text.after?_eq_some found, List.append_nil] at inside
        exact absurd inside foreign
    | cons c tail =>
      cases blank : Text.isBlank c with
      | false => simp [blank] at empty
      | true => simp [blank]

theorem greedyPath?_extend_some {text path : Text} (found : greedyPath? text = some path) {more : Text}
    (blank : StartsBlank more) : greedyPath? (text ++ more) = some path := by
  unfold greedyPath? at found ⊢
  cases tailFound : Text.after? scheme text with
  | none => simp [tailFound] at found
  | some tail =>
    have stops := takeWhile_stops (fun c => !Text.isBlank c)
      (fun c (first : c ∈ more.head?) => by simp [blank c first])
    have reach : (tail ++ more).takeWhile (fun c => !Text.isBlank c) =
        tail.takeWhile (fun c => !Text.isBlank c) := by
      rw [List.takeWhile_append]
      split
      · next all => rw [stops, List.append_nil, (List.takeWhile_prefix _).eq_of_length all]
      · rfl
    rw [tailFound] at found
    rw [after?_extend tailFound]
    simpa only [reach] using found

private theorem findLookup_extend {name inner extent rest : Text} {shape : Shape}
    (found : findLookup name inner = .expression shape extent rest) (more : Text) :
    findLookup name (inner ++ more) = .expression shape extent (rest ++ more) := by
  unfold findLookup at found ⊢
  cases closed : enclosed .bracket inner with
  | none => simp [closed] at found
  | some parts =>
    obtain ⟨inside, after⟩ := parts
    have grown : enclosed .bracket (inner ++ more) = some (inside, after ++ more) :=
      closing_extend closed more
    rw [closed] at found
    rw [grown]
    dsimp only at found ⊢
    split at found <;> cases found <;> simp [*]

private theorem findAttribute_extend {name tail extent rest : Text} {shape : Shape}
    (found : findAttribute .greedy name tail = .expression shape extent rest) {more : Text}
    (settled : Settled rest more) :
    findAttribute .greedy name (tail ++ more) = .expression shape extent (rest ++ more) := by
  have whole := splitPath_append tail
  unfold findAttribute at found ⊢
  dsimp only at found ⊢
  split at found
  · next empty =>
    cases found
    have pathEmpty : (splitPath tail).1 = [] := by simpa using empty
    have behind : Settled (splitPath tail).2 more := by
      rw [pathEmpty, List.nil_append] at whole
      rw [whole]
      exact settled.imp_right fun isAt => by simpa using isAt
    rw [splitPath_extend more behind]
    simp [pathEmpty]
  · next full =>
    cases found
    rw [splitPath_extend more settled]
    simp [full]

private theorem findExpression_not_nothing {mode : Mode} {c : Char} (start : isNameStart c = true)
    (text : Text) : findExpression mode (c :: text) ≠ .nothing := by
  intro found
  simp only [findExpression, splitName, start, ↓reduceIte, List.isEmpty_cons, Bool.false_eq_true] at found
  split at found
  · unfold findLookup at found
    dsimp only at found
    split at found
    · cases found
    · split at found <;> cases found
  · next tail _ =>
    obtain ⟨_, _, _, same, _⟩ := findAttribute_found mode _ tail
    cases same.symm.trans found
  · cases found

private theorem splitName_stops {text : Text} (named : (splitName text).1 ≠ []) :
    continuesName (splitName text).2 = false := by
  cases text with
  | nil => exact absurd rfl named
  | cons c text =>
    by_cases start : isNameStart c
    · simpa [splitName, start] using continuesName_rest text
    · simp [splitName, start] at named

/-- An undelimited expression is found alike when the text grows behind it: a
lookup by any text, everything else by text that cannot join. -/
theorem findExpression_extend {text extent rest : Text} {shape : Shape}
    (found : findExpression .greedy text = .expression shape extent rest) {more : Text}
    (settled : Settled rest more ∨ ∃ name keys, shape = .lookup name keys) :
    findExpression .greedy (text ++ more) = .expression shape extent (rest ++ more) := by
  have full : text ≠ [] := by
    rintro rfl
    cases found
  have stops := @splitName_stops text
  have grown := @splitName_extend text more full
  unfold findExpression at found ⊢
  generalize splitName text = split at found stops grown
  obtain ⟨name, after⟩ := split
  dsimp only at found stops grown
  split at found
  · cases found
  · next named =>
    split at found
    · next inner =>
      rw [grown (by simp [continuesName]; decide)]
      simpa [named] using findLookup_extend found more
    · next tail =>
      have behind : Settled rest more := by
        rcases settled with behind | ⟨_, _, rfl⟩
        · exact behind
        · obtain ⟨_, _, _, same, notLookup⟩ := findAttribute_found .greedy name tail
          cases same.symm.trans found
          exact absurd rfl (notLookup _ _)
      rw [grown (by simp [continuesName]; decide)]
      simpa [named] using findAttribute_extend found behind
    · next notBracket notDot =>
      cases found
      have behind : Settled rest more := by
        rcases settled with behind | ⟨_, _, lookup⟩
        · exact behind
        · cases lookup
      rw [grown (continuesName_settled (stops (by simpa using named)) behind)]
      simp only [named, Bool.false_eq_true, ↓reduceIte]
      split
      · next inner same =>
        cases rest with
        | cons c rest =>
          cases same
          exact absurd rfl (notBracket rest)
        | nil =>
          rcases behind with blank | isAt
          · cases blank '[' (by simpa using congrArg List.head? same)
          · cases isAt
      · next tail same =>
        cases rest with
        | cons c rest =>
          cases same
          exact absurd rfl (notDot rest)
        | nil =>
          rcases behind with blank | isAt
          · cases blank '.' (by simpa using congrArg List.head? same)
          · cases isAt
      · rfl

/-- Directives whose own text tells where they end: a doubled `@`, a delimited
expression, a bracketed lookup. `text` is what follows their `@`. -/
def SelfDelimiting (text : Text) (directive : Directive) : Prop :=
  directive = .escape ∨
    (text.head? = some '{' ∧ ∃ lead shape, directive = .expression lead shape) ∨
    ∃ lead name keys, directive = .expression lead (.lookup name keys)

private theorem readDelimited_extend {inner extent rest : Text} {directive : Directive}
    (reading : readDelimited inner = ⟨directive, extent, rest⟩)
    (closed : ∀ delimiter offset, directive ≠ .unclosed delimiter offset) (more : Text) :
    readDelimited (inner ++ more) = ⟨directive, extent, rest ++ more⟩ := by
  unfold readDelimited at reading ⊢
  cases found : enclosed .brace inner with
  | none =>
    rw [found] at reading
    cases reading
    exact absurd rfl (closed _ _)
  | some parts =>
    obtain ⟨raw, after⟩ := parts
    have grown : enclosed .brace (inner ++ more) = some (raw, after ++ more) := closing_extend found more
    rw [found] at reading
    rw [grown]
    dsimp only [Reading.bare] at reading ⊢
    split at reading
    · cases reading
      rfl
    · split at reading <;> cases reading <;> rfl

private theorem lookup_bracket {mode : Mode} {text extent rest name : Text} {keys : List Key}
    (found : findExpression mode text = .expression (.lookup name keys) extent rest) :
    '[' ∈ extent := by
  obtain ⟨_, inside, _, _, _, rfl⟩ := findExpression_lookup found
  simp

private theorem readGreedy_extend {c : Char} (start : isNameStart c = true) {text extent rest : Text}
    {directive : Directive} (reading : readGreedy (c :: text) = ⟨directive, extent, rest⟩)
    (whole : extent ++ rest = c :: text)
    (closed : ∀ delimiter offset, directive ≠ .unclosed delimiter offset) {more : Text}
    (settled : StartsBlank more ∨ ('@' ∈ rest ∧ ∀ named, directive ≠ .inclusion named) ∨
      ∃ lead name keys, directive = .expression lead (.lookup name keys)) :
    readGreedy (c :: text ++ more) = ⟨directive, extent, rest ++ more⟩ := by
  unfold readGreedy at reading ⊢
  cases path : greedyPath? (c :: text) with
  | some named =>
    rw [path] at reading
    cases reading
    have blank : StartsBlank more := by
      rcases settled with blank | ⟨_, other⟩ | ⟨_, _, _, lookup⟩
      · exact blank
      · exact absurd rfl (other named)
      · cases lookup
    have long := congrArg List.length whole
    simp only [List.length_append] at long
    rw [greedyPath?_extend_some path blank]
    simp only [Reading.mk.injEq, true_and]
    exact List.drop_append_of_le_length (by simp only [List.length_append]; omega)
  | none =>
    rw [path] at reading
    dsimp only at reading
    cases found : findExpression .greedy (c :: text) with
    | nothing => exact absurd found (findExpression_not_nothing start text)
    | unclosed offset =>
      rw [found] at reading
      cases reading
      exact absurd rfl (closed _ _)
    | expression shape own after =>
      rw [found] at reading
      cases reading
      have unnamed : greedyPath? (c :: text ++ more) = none := by
        apply greedyPath?_extend_none path
        rcases settled with blank | ⟨isAt, _⟩ | ⟨_, _, _, lookup⟩
        · exact .inl blank
        · exact .inr ⟨'@', whole ▸ List.mem_append_right _ isAt, by decide⟩
        · cases lookup
          exact .inr ⟨'[', whole ▸ List.mem_append_left _ (lookup_bracket found), by decide⟩
      have behind : Settled rest more ∨ ∃ name keys, shape = .lookup name keys := by
        rcases settled with blank | ⟨isAt, _⟩ | ⟨_, name, keys, lookup⟩
        · exact .inl (.inl blank)
        · exact .inl (.inr isAt)
        · cases lookup
          exact .inr ⟨name, keys, rfl⟩
      rw [unnamed]
      simp only [findExpression_extend found behind]

private theorem readGreedy_not_escape (text : Text) : (readGreedy text).directive ≠ .escape := by
  unfold readGreedy
  split
  · exact Directive.noConfusion
  · split <;> exact Directive.noConfusion

private theorem read_blank {text : Text} (blank : StartsBlank text) : read text = .bare .plain text := by
  cases text with
  | nil => rfl
  | cons c text =>
    have isBlank := blank c rfl
    have notAt : c ≠ '@' := by rintro rfl; cases isBlank
    have notBrace : c ≠ '{' := by rintro rfl; cases isBlank
    have notName : isNameStart c ≠ true := by
      intro start
      cases (isNameStart_nameChar start).symm.trans (isBlank_not_nameChar isBlank)
    simp [read, notAt, notBrace, notName]

/-- A directive is read alike when the text after it grows: by text that starts
with a blank, by any text as long as an `@` stands between, and by any text at all
when the directive itself tells where it ends. -/
theorem read_extend {text extent rest : Text} {directive : Directive}
    (reading : read text = ⟨directive, extent, rest⟩)
    (closed : ∀ delimiter offset, directive ≠ .unclosed delimiter offset) {more : Text}
    (settled : StartsBlank more ∨ ('@' ∈ rest ∧ ∀ named, directive ≠ .inclusion named) ∨
      SelfDelimiting text directive) :
    read (text ++ more) = ⟨directive, extent, rest ++ more⟩ := by
  have whole : extent ++ rest = text := by simpa [reading] using read_append text
  cases text with
  | nil =>
    cases reading
    rcases settled with blank | ⟨isAt, _⟩ | escape | ⟨brace, _⟩ | ⟨_, _, _, lookup⟩
    · exact read_blank blank
    · cases isAt
    · cases escape
    · cases brace
    · cases lookup
  | cons c text =>
    simp only [List.cons_append, read] at reading ⊢
    split at reading
    · cases reading
      simp [*]
    · next notAt =>
      rw [if_neg notAt]
      split at reading
      · next opens =>
        rw [if_pos opens]
        exact readDelimited_extend reading closed more
      · next notBrace =>
        rw [if_neg notBrace]
        split at reading
        · next start =>
          rw [if_pos start]
          apply readGreedy_extend start reading whole closed
          rcases settled with blank | behind | escape | ⟨brace, _⟩ | lookup
          · exact .inl blank
          · exact .inr (.inl behind)
          · exact absurd (congrArg Reading.directive reading) (escape ▸ readGreedy_not_escape _)
          · exact absurd (Option.some.inj brace) notBrace
          · exact .inr (.inr lookup)
        · next other =>
          rw [if_neg other]
          cases reading
          rfl

end StackTemplate.Directive
