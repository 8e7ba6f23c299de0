import StackTemplate.Proofs.ByteOffsets
import StackTemplate.Proofs.DirectiveLookahead

/-! The grammar read byte by byte. Delimiters, names, paths and keys are found by going
through the bytes of a text and are cut out of it by offset. Each step that could have no
result is checked, and `none` says that one had none: a slice between offsets that are
not boundaries, a byte past the end, a difference below zero. Read in this way a text
gives what it gives read by characters, and no check ever fails. -/
namespace StackTemplate.Checked
open Text Directive

/-- Goes through bytes from offset `i` on with `depth` delimiters open, up to the closer
that leaves none open. -/
def closerFrom (opener closer : Char) (depth i : Nat) : List UInt8 → Option (Option Nat)
  | [] => some none
  | b :: rest =>
    if Char.ofUInt8 b = opener then closerFrom opener closer (depth + 1) (i + 1) rest
    else if Char.ofUInt8 b = closer then do
      let depth ← minus? depth 1
      if depth = 0 then some (some i) else closerFrom opener closer depth (i + 1) rest
    else closerFrom opener closer depth (i + 1) rest

/-- The offset of the closer of the delimiter that stands at `opening`. -/
def findMatching (text : Text) (opening : Nat) (delimiter : Delimiter) : Option (Option Nat) :=
  closerFrom delimiter.opener delimiter.closer 0 opening ((bytes text).drop opening)

/-- Where a name that goes on at offset `i` ends. A pair of colons only joins when a
character of a name follows. -/
def nameEndFrom (i : Nat) : List UInt8 → Nat
  | [] => i
  | b :: rest =>
    if isNameChar (Char.ofUInt8 b) then nameEndFrom (i + 1) rest
    else match rest with
      | colon :: next :: more =>
        if Char.ofUInt8 b = ':' ∧ Char.ofUInt8 colon = ':' ∧ isNameChar (Char.ofUInt8 next) then
          nameEndFrom (i + 2) (next :: more)
        else i
      | _ => i

/-- Where the name that starts at an offset ends; the offset itself if none starts there. -/
def nameEnd (text : Text) (start : Nat) : Nat :=
  match (bytes text).drop start with
  | [] => start
  | b :: rest => if isNameStart (Char.ofUInt8 b) then nameEndFrom (start + 1) rest else start

/-- Goes back from `finish` over dots, not further than `start`. -/
def backOverDots (bytes : List UInt8) (start finish : Nat) : Option Nat :=
  if start < finish then
    match _ : minus? finish 1 with
    | none => none
    | some last => do
      let b ← bytes[last]?
      if Char.ofUInt8 b = '.' then backOverDots bytes start last else some finish
  else some finish
termination_by finish
decreasing_by exact minus?_lt Nat.one_pos ‹minus? finish 1 = some last›

/-- Where the path that starts at an offset ends. -/
def pathEnd (mode : Mode) (text : Text) (start : Nat) : Option Nat :=
  match mode with
  | .delimited => some (byteLength text)
  | .greedy =>
    let reach := ((bytes text).drop start).takeWhile fun b => isPathChar (Char.ofUInt8 b)
    backOverDots (bytes text) start (start + reach.length)

/-- The attribute of a name that is followed by a dot, and where it ends. -/
def parseAttribute (text name : Text) (dot : Nat) (mode : Mode) : Option (Fragment × Nat) := do
  let finish ← pathEnd mode text (dot + 1)
  if finish = dot + 1 then some (.reference name, dot)
  else
    let path ← slice? text (dot + 1) finish
    some (.attributeOf name path, finish)

/-- The key between two offsets. -/
def keyBetween (interior : Text) (start finish : Nat) : Option Key := do
  let raw ← slice? interior start finish
  let lead ← minus? (byteLength raw) (byteLength (trimStart raw))
  some { offset := start + lead, text := trim raw }

/-- Goes through the bytes of an interior from offset `i` on. The key that is being read
began at `start`, and `depth` delimiters are open. -/
def keysAt (interior : Text) (depth start i : Nat) : List UInt8 → Option (List Key)
  | [] => do
    let key ← keyBetween interior start (byteLength interior)
    some [key]
  | b :: rest =>
    if Char.ofUInt8 b = ',' ∧ depth = 0 then do
      let key ← keyBetween interior start i
      let more ← keysAt interior depth (i + 1) (i + 1) rest
      some (key :: more)
    else keysAt interior (depthAfter depth (Char.ofUInt8 b)) start (i + 1) rest

/-- The keys between a pair of brackets. -/
def splitKeys (interior : Text) : Option (List Key) :=
  keysAt interior 0 0 0 (bytes interior)

/-- The path that undelimited text asks to include, and where it ends. -/
def greedyPath (text : Text) (start : Nat) : Option (Option (Text × Nat)) := do
  let rest ← slice? text start (byteLength text)
  match after? scheme rest with
  | none => some none
  | some _ =>
    let pathStart := start + byteLength scheme
    let tail ← slice? text pathStart (byteLength text)
    let finish := match offsetOf? isBlank tail with
      | none => byteLength text
      | some i => pathStart + i
    if pathStart < finish then
      let path ← slice? text pathStart finish
      some (some (path, finish))
    else some none

theorem narrow_opener (delimiter : Delimiter) : delimiter.opener.toNat < 128 := by
  cases delimiter <;> decide

theorem narrow_closer (delimiter : Delimiter) : delimiter.closer.toNat < 128 := by
  cases delimiter <;> decide

section Matching

variable {opener closer : Char}

/-- Bytes of longer characters are no delimiters. -/
private theorem closerFrom_skip (openerNarrow : opener.toNat < 128) (closerNarrow : closer.toNat < 128)
    {depth i : Nat} {skipped : List UInt8} (wide : ∀ b ∈ skipped, 128 ≤ (Char.ofUInt8 b).toNat)
    (rest : List UInt8) :
    closerFrom opener closer depth i (skipped ++ rest) =
      closerFrom opener closer depth (i + skipped.length) rest := by
  induction skipped generalizing i with
  | nil => rfl
  | cons b skipped ih =>
    have here := wide b (by simp)
    rw [List.cons_append, closerFrom, if_neg (ne_of_wide here openerNarrow),
      if_neg (ne_of_wide here closerNarrow), ih fun b member => wide b (by simp [member])]
    simp [Nat.add_assoc, Nat.add_comm 1]

/-- Bytes close a delimiter where characters do. -/
theorem closerFrom_bytes (openerNarrow : opener.toNat < 128) (closerNarrow : closer.toNat < 128)
    {depth i : Nat} (text : Text) :
    closerFrom opener closer (depth + 1) i (bytes text) =
      some ((closing opener closer depth text).map fun (inside, _) => i + byteLength inside) := by
  induction text generalizing depth i with
  | nil => rfl
  | cons c text ih =>
    have shifted {depth size : Nat} (same : size = c.utf8Size) :
        closerFrom opener closer (depth + 1) (i + size) (bytes text) =
          some (((closing opener closer depth text).map (enclose c)).map
            fun (inside, _) => i + byteLength inside) := by
      rw [ih, Option.map_map]
      congr 2
      funext ⟨inside, rest⟩
      simp [enclose, same, Nat.add_assoc]
    rw [closing.eq_def, bytes_cons]
    dsimp only
    obtain ⟨b, single, same, size⟩ | ⟨wide, high⟩ := utf8EncodeChar_cases c
    · rw [single, List.singleton_append, closerFrom, same]
      split
      · exact shifted size.symm
      · split
        · -- Some delimiter is open wherever a closer is met, so the depth can go down.
          cases depth with
          | zero => simp [minus?]
          | succ depth => simpa [minus?] using shifted size.symm
        · exact shifted size.symm
    · rw [closerFrom_skip openerNarrow closerNarrow high, if_neg (ne_of_wide wide openerNarrow),
        if_neg (ne_of_wide wide closerNarrow)]
      exact shifted (by simp)

end Matching

/-- The matching delimiter is found where the text it encloses ends. -/
theorem findMatching_eq (delimiter : Delimiter) (front inner : Text) :
    findMatching (front ++ delimiter.opener :: inner) (byteLength front) delimiter =
      some ((enclosed delimiter inner).map fun (inside, _) => byteLength front + 1 + byteLength inside) := by
  have isOpener := (ofUInt8_eq_iff (narrow_opener delimiter)).mpr rfl
  rw [findMatching, drop_bytes, bytes_cons_narrow (narrow_opener delimiter), closerFrom, if_pos isOpener,
    closerFrom_bytes (narrow_opener delimiter) (narrow_closer delimiter)]
  rfl

theorem narrow_isNameChar : Narrow isNameChar := by
  intro c named
  simp only [isNameChar, Char.isAlphanum, Char.isAlpha, Char.isUpper, Char.isLower, Char.isDigit,
    Bool.or_eq_true, Bool.and_eq_true, decide_eq_true_eq, beq_iff_eq, ge_iff_le,
    UInt32.le_iff_toNat_le] at named
  rcases named with ((bounds | bounds) | bounds) | rfl
  · exact Nat.lt_of_le_of_lt bounds.2 (by decide)
  · exact Nat.lt_of_le_of_lt bounds.2 (by decide)
  · exact Nat.lt_of_le_of_lt bounds.2 (by decide)
  · decide

theorem narrow_isNameStart : Narrow isNameStart := by
  intro c starts
  exact narrow_isNameChar c (isNameStart_nameChar starts)

theorem narrow_isPathChar : Narrow isPathChar := by
  intro c inPath
  simp only [isPathChar, Bool.or_eq_true, beq_iff_eq] at inPath
  rcases inPath with named | rfl
  · exact narrow_isNameChar c named
  · decide

/-- One byte that a name goes on with. -/
private theorem nameEndFrom_named {c : Char} (named : isNameChar c = true) (text : Text) (i : Nat) :
    nameEndFrom i (bytes (c :: text)) = nameEndFrom (i + 1) (bytes text) := by
  obtain ⟨b, single, same, -⟩ := utf8EncodeChar_narrow (narrow_isNameChar c named)
  rw [bytes_cons, single, List.singleton_append, nameEndFrom.eq_def]
  simp only [same, named, ↓reduceIte]

/-- A pair of colons that a name goes on after. -/
private theorem nameEndFrom_joined {c : Char} (named : isNameChar c = true) (text : Text) (i : Nat) :
    nameEndFrom i (bytes (':' :: ':' :: c :: text)) = nameEndFrom (i + 2) (bytes (c :: text)) := by
  obtain ⟨b, single, same, -⟩ := utf8EncodeChar_narrow (narrow_isNameChar c named)
  have spelled : bytes (':' :: ':' :: c :: text) = 58 :: 58 :: b :: bytes text := by
    rw [bytes_cons, bytes_cons, bytes_cons, single]
    rfl
  rw [spelled, bytes_cons, single, List.singleton_append, nameEndFrom.eq_def]
  simp only [same, named]
  rfl

private theorem isNameChar_first {c : Char} {text : Text} {b : UInt8} {rest : List UInt8}
    (spelled : bytes (c :: text) = b :: rest) (named : isNameChar (Char.ofUInt8 b) = true) :
    isNameChar c = true := by
  obtain ⟨more, same, -⟩ := bytes_eq_cons spelled (narrow_isNameChar _ named)
  cases same
  exact named

/-- A name ends where neither a character of a name nor a pair of colons before one follows. -/
private theorem nameEndFrom_other {c : Char} {text : Text} (unnamed : isNameChar c = false)
    (apart : ∀ next more, c :: text = ':' :: ':' :: next :: more → isNameChar next = false) (i : Nat) :
    nameEndFrom i (bytes (c :: text)) = i := by
  cases spelled : bytes (c :: text) with
  | nil => rfl
  | cons b tail =>
    have stops : isNameChar (Char.ofUInt8 b) = false := by
      rw [Bool.eq_false_iff]
      intro named
      rw [isNameChar_first spelled named] at unnamed
      cases unnamed
    rw [nameEndFrom.eq_def]
    simp only [stops, Bool.false_eq_true, ↓reduceIte]
    match tail with
    | [] => rfl
    | [_] => rfl
    | colon :: next :: more =>
      apply if_neg
      rintro ⟨first, second, named⟩
      obtain ⟨later, whole, again⟩ := bytes_eq_cons spelled (by rw [first]; decide)
      obtain ⟨last, rfl, ends⟩ := bytes_eq_cons again.symm (by rw [second]; decide)
      obtain ⟨rest, rfl, -⟩ := bytes_eq_cons ends.symm (narrow_isNameChar _ named)
      rw [first, second] at whole
      rw [apart _ _ whole] at named
      cases named

theorem nameEndFrom_bytes (text : Text) (i : Nat) :
    nameEndFrom i (bytes text) = i + byteLength (splitNameTail text).1 := by
  fun_induction splitNameTail text generalizing i with
  | case1 c rest named tail more split ih =>
    rw [nameEndFrom_joined named, nameEndFrom_named named, ih, split]
    simp only [byteLength_cons, utf8Size_narrow (narrow_isNameChar c named),
      show ':'.utf8Size = 1 from rfl]
    omega
  | case2 c rest unnamed =>
    rw [nameEndFrom_other rfl]
    · rfl
    · intro next more same
      cases same
      exact Bool.eq_false_iff.mpr unnamed
  | case3 c rest apart named tail more split ih =>
    rw [nameEndFrom_named named, ih, split, byteLength_cons,
      utf8Size_narrow (narrow_isNameChar c named), Nat.add_assoc]
  | case4 c rest apart unnamed =>
    rw [nameEndFrom_other (Bool.eq_false_iff.mpr unnamed)]
    · rfl
    · intro next more same
      cases same
      exact absurd rfl (apart _ _ rfl)
  | case5 => rfl

/-- A name ends where its characters end. -/
theorem nameEnd_eq (front text : Text) :
    nameEnd (front ++ text) (byteLength front) = byteLength front + byteLength (splitName text).1 := by
  rw [nameEnd, drop_bytes]
  cases text with
  | nil => rfl
  | cons c rest =>
    by_cases starts : isNameStart c = true
    · obtain ⟨b, single, same, size⟩ := utf8EncodeChar_narrow (narrow_isNameStart c starts)
      simp only [bytes_cons, single, List.singleton_append, same, starts, ↓reduceIte,
        nameEndFrom_bytes, splitName, byteLength_cons, size]
      omega
    · cases spelled : bytes (c :: rest) with
      | nil => simp [splitName, starts]
      | cons b tail =>
        have unnamed : isNameStart (Char.ofUInt8 b) ≠ true := by
          intro named
          obtain ⟨more, same, -⟩ := bytes_eq_cons spelled (narrow_isNameStart _ named)
          cases same
          exact starts named
        simp [splitName, starts, unnamed]

/-- Going back over the dots at the end of a reach leaves what stands before them. -/
theorem backOverDots_eq (front reach back : Text) (narrow : ∀ c ∈ reach, c.toNat < 128) :
    backOverDots (bytes (front ++ (reach ++ back))) (byteLength front)
        (byteLength front + byteLength reach) =
      some (byteLength front + byteLength (reach.reverse.dropWhile (· == '.')).reverse) := by
  induction reach using List.reverseRecOn generalizing back with
  | nil =>
    rw [backOverDots]
    simp
  | append_singleton reach c ih =>
    have ends := narrow c (by simp)
    obtain ⟨b, single, same, size⟩ := utf8EncodeChar_narrow ends
    have length : byteLength (reach ++ [c]) = byteLength reach + 1 := by simp [size]
    have last : (bytes (front ++ (reach ++ [c] ++ back)))[byteLength front + byteLength reach]? = some b := by
      rw [← byteLength_append, List.append_assoc, ← List.append_assoc front, List.singleton_append,
        getElem?_bytes, single]
      rfl
    rw [backOverDots, length, if_pos (by omega), ← Nat.add_assoc, minus?_add]
    dsimp only [Option.bind_eq_bind, Option.bind_some]
    rw [last]
    dsimp only [Option.bind_some]
    rw [same]
    by_cases dot : c = '.'
    · rw [if_pos dot, List.append_assoc, ih _ fun c member => narrow c (by simp [member])]
      simp [dot]
    · rw [if_neg dot]
      simp [dot, size, Nat.add_assoc]

/-- A path ends where its characters end. -/
theorem pathEnd_greedy (front text : Text) :
    pathEnd .greedy (front ++ text) (byteLength front) =
      some (byteLength front + byteLength (splitPath text).1) := by
  have narrow : ∀ c ∈ text.takeWhile isPathChar, c.toNat < 128 := by
    intro c member
    exact narrow_isPathChar c (List.mem_takeWhile_imp member)
  have whole := List.takeWhile_append_dropWhile (p := isPathChar) (l := text)
  have back := backOverDots_eq front (text.takeWhile isPathChar) (text.dropWhile isPathChar) narrow
  rw [whole] at back
  rw [pathEnd, drop_bytes, takeWhile_bytes narrow_isPathChar, length_bytes]
  exact back

private theorem parseAttribute_of_pathEnd {front name tail path rest : Text} {mode : Mode}
    (whole : tail = path ++ rest)
    (found : findAttribute mode name tail =
      if path.isEmpty then .expression (.reference name) name ('.' :: tail)
      else .expression (.attributeOf name path) (name ++ '.' :: path) rest)
    (ends : pathEnd mode (front ++ (name ++ '.' :: tail)) (byteLength front + byteLength name + 1) =
      some (byteLength front + byteLength name + 1 + byteLength path)) :
    ∃ shape extent rest, findAttribute mode name tail = .expression shape extent rest ∧
      shape.keys = [] ∧
      parseAttribute (front ++ (name ++ '.' :: tail)) name (byteLength front + byteLength name) mode =
        some (shape.build [], byteLength front + byteLength extent) := by
  rw [found, parseAttribute, ends]
  dsimp only [Option.bind_eq_bind, Option.bind_some]
  cases path with
  | nil => exact ⟨_, _, _, rfl, rfl, by simp [Shape.build]⟩
  | cons c path =>
    have stands : front ++ (name ++ '.' :: tail) = (front ++ (name ++ ['.'])) ++ (c :: path ++ rest) := by
      simp [whole]
    have starts : byteLength front + byteLength name + 1 = byteLength (front ++ (name ++ ['.'])) := by
      simp [utf8Size_narrow, Nat.add_assoc]
    have full := byteLength_cons_ne_zero c path
    have further : byteLength front + byteLength name + 1 + byteLength (c :: path) ≠
        byteLength front + byteLength name + 1 := by omega
    rw [if_neg further, slice?_of_append stands starts (by rw [starts])]
    exact ⟨_, _, _, rfl, rfl, by simp [Shape.build, utf8Size_narrow, Nat.add_assoc]⟩

/-- What follows a name and a dot is parsed as it is found. -/
theorem parseAttribute_eq (front name tail : Text) (mode : Mode) :
    ∃ shape extent rest, findAttribute mode name tail = .expression shape extent rest ∧
      shape.keys = [] ∧
      parseAttribute (front ++ (name ++ '.' :: tail)) name (byteLength front + byteLength name) mode =
        some (shape.build [], byteLength front + byteLength extent) := by
  cases mode with
  | greedy =>
    have ends := pathEnd_greedy (front ++ (name ++ ['.'])) tail
    refine parseAttribute_of_pathEnd (splitPath_append tail).symm rfl ?_
    simpa [utf8Size_narrow, Nat.add_assoc] using ends
  | delimited =>
    refine parseAttribute_of_pathEnd (List.append_nil tail).symm rfl ?_
    simp [pathEnd, utf8Size_narrow, Nat.add_assoc]

/-- The key between two boundaries. -/
theorem keyBetween_eq {interior front piece back : Text} {start finish : Nat}
    (whole : interior = front ++ (piece ++ back)) (starts : start = byteLength front)
    (ends : finish = byteLength front + byteLength piece) :
    keyBetween interior start finish =
      some { offset := start + byteLength (leadingBlanks piece), text := trim piece } := by
  rw [keyBetween, slice?_of_append whole starts ends]
  dsimp only [Option.bind_eq_bind, Option.bind_some]
  rw [minus?_trimStart]
  rfl

private theorem depthAfter_wide {c : Char} (wide : 128 ≤ c.toNat) (depth : Nat) : depthAfter depth c = depth := by
  have other {sign : Char} (short : sign.toNat < 128) : c ≠ sign := ne_of_wide wide short
  rw [depthAfter, if_neg, if_neg]
  · rintro (same | same) <;> exact other (by decide) same
  · rintro (same | same) <;> exact other (by decide) same

private theorem keysAt_skip {interior : Text} {depth start i : Nat} {skipped : List UInt8}
    (wide : ∀ b ∈ skipped, 128 ≤ (Char.ofUInt8 b).toNat) (rest : List UInt8) :
    keysAt interior depth start i (skipped ++ rest) =
      keysAt interior depth start (i + skipped.length) rest := by
  induction skipped generalizing i with
  | nil => rfl
  | cons b skipped ih =>
    have here := wide b (by simp)
    have notComma : Char.ofUInt8 b ≠ ',' := ne_of_wide here (by decide)
    rw [List.cons_append, keysAt, if_neg fun cut => notComma cut.1, depthAfter_wide here,
      ih fun b member => wide b (by simp [member])]
    simp [Nat.add_assoc, Nat.add_comm 1]

/-- Bytes are cut at commas where characters are. `held` has been read of the first key. -/
theorem keysAt_bytes {interior front held text piece : Text} {pieces : List Text} {depth : Nat}
    (whole : interior = front ++ (held ++ text)) (cut : cutAtCommas depth text = piece :: pieces) :
    keysAt interior depth (byteLength front) (byteLength front + byteLength held) (bytes text) =
      some (keysFrom (byteLength front) ((held ++ piece) :: pieces)) := by
  induction text generalizing front held piece pieces depth with
  | nil =>
    cases cut
    rw [bytes_nil, keysAt, keyBetween_eq whole rfl (by simp [whole])]
    simp [keysFrom]
  | cons c text ih =>
    rw [cutAtCommas] at cut
    obtain ⟨next, more, later⟩ : ∃ next more, cutAtCommas (depthAfter depth c) text = next :: more :=
      List.exists_cons_of_ne_nil (cutAtCommas_ne_nil _ _)
    have extended : interior = front ++ ((held ++ [c]) ++ text) := by simp [whole]
    have onward := ih extended later
    rw [byteLength_append, ← Nat.add_assoc] at onward
    obtain ⟨b, single, same, size⟩ | ⟨wide, high⟩ := utf8EncodeChar_cases c
    · rw [bytes_cons, single, List.singleton_append, keysAt, same]
      split at cut
      · next comma =>
        cases cut
        obtain ⟨first, others, begins⟩ : ∃ first others, cutAtCommas depth text = first :: others :=
          List.exists_cons_of_ne_nil (cutAtCommas_ne_nil _ _)
        have passed : byteLength (front ++ (held ++ [c])) = byteLength front + byteLength held + 1 := by
          simp [size, Nat.add_assoc]
        have resumed := ih (by simp [whole] : interior = (front ++ (held ++ [c])) ++ ([] ++ text)) begins
        rw [passed, byteLength_nil, Nat.add_zero, List.nil_append] at resumed
        rw [if_pos comma, keyBetween_eq whole rfl rfl, resumed, begins]
        simp [keysFrom]
      · next uncut =>
        rw [if_neg uncut]
        rw [later] at cut
        cases cut
        simpa [size] using onward
    · have notComma : c ≠ ',' := ne_of_wide wide (by decide)
      rw [if_neg fun both => notComma both.1, later] at cut
      cases cut
      rw [bytes_cons, keysAt_skip high]
      rw [depthAfter_wide wide] at onward
      simpa using onward

/-- Keys are cut out of their brackets as the text is cut at its commas. -/
theorem splitKeys_eq (interior : Text) : splitKeys interior = some (Directive.splitKeys interior) := by
  obtain ⟨piece, pieces, cut⟩ : ∃ piece pieces, cutAtCommas 0 interior = piece :: pieces :=
    List.exists_cons_of_ne_nil (cutAtCommas_ne_nil _ _)
  rw [splitKeys, Directive.splitKeys, cut]
  exact @keysAt_bytes interior [] [] interior piece pieces 0 rfl cut

/-- A search by characters ends after those that fail its test. -/
private theorem offsetOf?_end (test : Char → Bool) (front text : Text) :
    (match offsetOf? test text with
      | none => byteLength (front ++ text)
      | some i => byteLength front + i) =
      byteLength front + byteLength (text.takeWhile fun c => !test c) := by
  rw [offsetOf?_eq]
  by_cases found : text.any test
  · simp [found]
  · have all : text.takeWhile (fun c => !test c) = text := by
      rw [List.takeWhile_eq_self_iff]
      simpa using found
    simp [found, all]

/-- The path of an inclusion ends where its characters end. -/
theorem greedyPath_eq (front text : Text) :
    greedyPath (front ++ text) (byteLength front) =
      some ((greedyPath? text).map fun path =>
        (path, byteLength front + byteLength (scheme ++ path))) := by
  rw [greedyPath, slice?_end rfl rfl, greedyPath?]
  dsimp only [Option.bind_eq_bind, Option.bind_some]
  cases named : after? scheme text with
  | none => rfl
  | some tail =>
    have whole : front ++ text = (front ++ scheme) ++ tail := by
      rw [after?_eq_some named, List.append_assoc]
    dsimp only
    rw [← byteLength_append, slice?_end whole rfl]
    dsimp only [Option.bind_some]
    rw [whole, offsetOf?_end]
    have parts := List.takeWhile_append_dropWhile (p := fun c => !isBlank c) (l := tail)
    generalize tail.takeWhile (fun c => !isBlank c) = path at parts ⊢
    cases path with
    | nil => simp
    | cons c path =>
      have full := byteLength_cons_ne_zero c path
      rw [if_pos (by omega), slice?_of_append (by rw [parts]) rfl rfl]
      simp [Nat.add_assoc]

end StackTemplate.Checked
