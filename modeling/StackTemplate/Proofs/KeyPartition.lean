import StackTemplate.Proofs.BalancedText
import StackTemplate.Proofs.ByteOffsets

/-! Keys take their brackets apart without loss. Which commas separate keys is said of
places in the text: a comma does that stands at depth zero, where openers of both kinds
count up and closers of both kinds down. Between these commas lie the pieces, and each
key stands in its own piece at the byte offset it names, with nothing but blanks around it. -/
namespace StackTemplate.Directive
open Text

/-- How deep a place of a text stands. Brackets and braces in front of it count alike, an
opener up and a closer down, but never below zero. -/
def depthAt (text : Text) : Nat → Nat
  | 0 => 0
  | place + 1 =>
    if text[place]? = some '[' ∨ text[place]? = some '{' then depthAt text place + 1
    else if text[place]? = some ']' ∨ text[place]? = some '}' then depthAt text place - 1
    else depthAt text place

/-- A comma outside all delimiters. -/
def Separates (text : Text) (place : Nat) : Prop :=
  text[place]? = some ',' ∧ depthAt text place = 0

instance (text : Text) (place : Nat) : Decidable (Separates text place) :=
  inferInstanceAs (Decidable (_ ∧ _))

/-- The places of the commas outside all delimiters, in their order. -/
def separators (text : Text) : List Nat :=
  (List.range text.length).filter (Separates text)

/-- A part of a text, from the place `first` up to the place `last`. -/
structure Stretch where
  first : Nat
  last : Nat

/-- The text in a stretch. -/
def Stretch.of (stretch : Stretch) (text : Text) : Text :=
  (text.take stretch.last).drop stretch.first

/-- What lies from `start` on before, between and behind some places of a text. -/
def stretchesFrom (text : Text) (start : Nat) : List Nat → List Stretch
  | [] => [⟨start, text.length⟩]
  | place :: places => ⟨start, place⟩ :: stretchesFrom text (place + 1) places

/-- What lies before, between and behind the commas outside all delimiters. -/
def stretches (text : Text) : List Stretch :=
  stretchesFrom text 0 (separators text)

/-- A key stands in a stretch of the text it was cut from: at its offset, and if the
stretch is blank, at its end. -/
structure Key.StandsIn (inside : Text) (key : Key) (stretch : Stretch) : Prop where
  starts : byteLength (inside.take stretch.first) ≤ key.offset
  ends : key.offset + byteLength key.text ≤ byteLength (inside.take stretch.last)
  sliced : slice? inside key.offset (key.offset + byteLength key.text) = some key.text
  blank : trim (stretch.of inside) = [] → key.offset = byteLength (inside.take stretch.last)

variable {text rest : Text} {place start : Nat} {places : List Nat} {c : Char}

theorem depthAt_succ (here : text[place]? = some c) :
    depthAt text (place + 1) = depthAfter (depthAt text place) c := by
  simp only [depthAt, depthAfter, here, Option.some.injEq]

theorem length_stretchesFrom : (stretchesFrom text start places).length = places.length + 1 := by
  induction places generalizing start with
  | nil => rfl
  | cons place places ih => rw [stretchesFrom, List.length_cons, ih, List.length_cons]

/-- A character in front belongs to the first stretch. -/
theorem texts_stretchesFrom (here : text.drop place = c :: rest) (later : ∀ cut ∈ places, place < cut) :
    (stretchesFrom text place places).map (·.of text) =
      extendFirst c ((stretchesFrom text (place + 1) places).map (·.of text)) := by
  have after := (drop_cons here).2
  cases places with
  | nil => simp [stretchesFrom, Stretch.of, extendFirst, here, after]
  | cons cut cuts =>
    have beyond := later cut (by simp)
    have width : cut - place = cut - (place + 1) + 1 := by omega
    simp [stretchesFrom, Stretch.of, extendFirst, List.drop_take, here, after, width]

/-- Cutting a text at its commas is cutting it at those that stand outside all delimiters.
What is left of the text is cut with the depth of the place where it begins. -/
theorem cutAtCommas_eq_stretches (here : text.drop place = rest) :
    cutAtCommas (depthAt text place) rest =
      (stretchesFrom text place ((List.range' place rest.length).filter (Separates text))).map
        (·.of text) := by
  induction rest generalizing place with
  | nil => simp [cutAtCommas, stretchesFrom, Stretch.of, here]
  | cons c rest ih =>
    obtain ⟨isHere, after⟩ := drop_cons here
    have onward := ih after
    rw [depthAt_succ isHere] at onward
    rw [cutAtCommas, List.length_cons, List.range'_succ]
    by_cases separates : c = ',' ∧ depthAt text place = 0
    · have cuts : Separates text place := ⟨by rw [isHere, separates.1], separates.2⟩
      have level : depthAfter (depthAt text place) c = depthAt text place := by
        rw [separates.1]
        rfl
      rw [if_pos separates, List.filter_cons_of_pos (by simpa using cuts), ← level, onward]
      simp [stretchesFrom, Stretch.of, List.drop_take]
    · have stays : ¬Separates text place := by
        rintro ⟨comma, level⟩
        rw [isHere, Option.some.injEq] at comma
        exact separates ⟨comma, level⟩
      rw [if_neg separates, List.filter_cons_of_neg (by simpa using stays), onward]
      refine (texts_stretchesFrom here fun cut member => ?_).symm
      have bounds := List.mem_range'_1.mp (List.mem_filter.mp member).1
      omega

theorem cutAtCommas_stretches (text : Text) :
    cutAtCommas 0 text = (stretches text).map (·.of text) := by
  rw [stretches, separators, List.range_eq_range']
  exact @cutAtCommas_eq_stretches text text 0 rfl

/-- Text that trimming leaves nothing of is blank from its start on. -/
theorem leadingBlanks_eq_self (nothing : trim text = []) : leadingBlanks text = text := by
  obtain ⟨trail, padded, leadBlank, trailBlank⟩ := exists_padding text
  rw [nothing, List.append_nil] at padded
  rw [leadingBlanks, List.takeWhile_eq_self_iff]
  intro c member
  rw [padded] at member
  exact (List.mem_append.mp member).elim (leadBlank c) (trailBlank c)

/-- What trimming leaves of a piece stands behind the blanks at its start. -/
theorem slice?_trim (front piece back : Text) :
    slice? (front ++ (piece ++ back)) (byteLength front + byteLength (leadingBlanks piece))
      (byteLength front + byteLength (leadingBlanks piece) + byteLength (trim piece)) =
        some (trim piece) := by
  obtain ⟨trail, padded, -, -⟩ := exists_padding piece
  have whole : front ++ (piece ++ back) =
      (front ++ leadingBlanks piece) ++ (trim piece ++ (trail ++ back)) := by
    conv_lhs => rw [padded]
    simp only [List.append_assoc]
  exact slice?_of_append whole (by rw [byteLength_append]) (by rw [byteLength_append])

/-- A text up to the end of a stretch is the text up to its start, and the stretch. -/
theorem Stretch.take_last (stretch : Stretch) (ordered : stretch.first ≤ stretch.last) (text : Text) :
    text.take stretch.last = text.take stretch.first ++ stretch.of text := by
  have halves := List.take_append_drop stretch.first (text.take stretch.last)
  rw [List.take_take, Nat.min_eq_left ordered] at halves
  exact halves.symm

/-- The key of a stretch stands in it. -/
theorem Stretch.standsIn (stretch : Stretch) (ordered : stretch.first ≤ stretch.last) (inside : Text) :
    Key.StandsIn inside
      { offset := byteLength (inside.take stretch.first) + byteLength (leadingBlanks (stretch.of inside))
        text := trim (stretch.of inside) } stretch := by
  have upTo := stretch.take_last ordered inside
  have whole : inside.take stretch.first ++ (stretch.of inside ++ inside.drop stretch.last) = inside := by
    rw [← List.append_assoc, ← upTo, List.take_append_drop]
  constructor
  · exact Nat.le_add_right _ _
  · obtain ⟨trail, padded, -, -⟩ := exists_padding (stretch.of inside)
    have width := congrArg byteLength padded
    rw [byteLength_append, byteLength_append] at width
    rw [upTo, byteLength_append]
    dsimp only
    omega
  · have sliced := slice?_trim (inside.take stretch.first) (stretch.of inside) (inside.drop stretch.last)
    rwa [whole] at sliced
  · intro nothing
    rw [upTo, byteLength_append, leadingBlanks_eq_self nothing]

/-- Keys stand in the stretches they are cut from, one after the other. -/
theorem keysFrom_standsIn (reached : start ≤ text.length) (ordered : places.Pairwise (· < ·))
    (commas : ∀ place ∈ places, start ≤ place ∧ text[place]? = some ',') :
    List.Forall₂ (Key.StandsIn text)
      (keysFrom (byteLength (text.take start)) ((stretchesFrom text start places).map (·.of text)))
      (stretchesFrom text start places) := by
  induction places generalizing start with
  | nil => exact .cons (Stretch.standsIn ⟨start, text.length⟩ reached text) .nil
  | cons place places ih =>
    obtain ⟨⟨after, comma⟩, laterCommas⟩ := List.forall_mem_cons.mp commas
    obtain ⟨before, laterOrdered⟩ := List.pairwise_cons.mp ordered
    have inText := (List.getElem?_eq_some_iff.mp comma).1
    have passed : byteLength (text.take start) + byteLength (Stretch.of ⟨start, place⟩ text) + 1 =
        byteLength (text.take (place + 1)) := by
      rw [List.take_add_one, comma, Stretch.take_last ⟨start, place⟩ after text]
      simp [utf8Size_narrow, Nat.add_assoc]
    have later := ih inText laterOrdered fun next member => ⟨before next member, (laterCommas next member).2⟩
    rw [← passed] at later
    exact .cons (Stretch.standsIn ⟨start, place⟩ after text) later

/-- The separating commas are in order, and each is a comma. -/
theorem separators_spec (text : Text) :
    (separators text).Pairwise (· < ·) ∧ ∀ place ∈ separators text, text[place]? = some ',' := by
  refine ⟨List.pairwise_lt_range.filter _, fun place member => ?_⟩
  have separates := (List.mem_filter.mp member).2
  exact (of_decide_eq_true separates).1

/-- Keys are an exact partition of the text between their brackets. There is one more than
there are commas outside all delimiters; the pieces between these commas, trimmed, are the
keys in their order, and with commas between them the text again; and each key stands in
its own piece, at the byte offset it names, or at the end of the piece if that is blank. -/
theorem splitKeys_partition (inside : Text) :
    (splitKeys inside).length = (separators inside).length + 1 ∧
    (splitKeys inside).map Key.text = (stretches inside).map (fun stretch => trim (stretch.of inside)) ∧
    [','].intercalate ((stretches inside).map (·.of inside)) = inside ∧
    List.Forall₂ (Key.StandsIn inside) (splitKeys inside) (stretches inside) := by
  have cut := cutAtCommas_stretches inside
  have texts : (splitKeys inside).map Key.text =
      (stretches inside).map (fun stretch => trim (stretch.of inside)) := by
    rw [texts_splitKeys, cut, List.map_map]
    rfl
  obtain ⟨ordered, commas⟩ := separators_spec inside
  refine ⟨?_, texts, ?_, ?_⟩
  · have same := congrArg List.length texts
    rwa [List.length_map, List.length_map, stretches, length_stretchesFrom] at same
  · rw [← cut, intercalate_cutAtCommas]
  · rw [splitKeys, cut]
    exact @keysFrom_standsIn inside 0 _ (Nat.zero_le _) ordered fun place member =>
      ⟨Nat.zero_le place, commas place member⟩

/-- A closer with nothing to close, a piece that is one wide blank, and an opener that hides a comma. -/
example : splitKeys [' ', 'a', ']', ',', '\u3000', ',', '[', 'b', ',', 'c'] =
    [⟨1, ['a', ']']⟩, ⟨7, []⟩, ⟨8, ['[', 'b', ',', 'c']⟩] := by
  decide

end StackTemplate.Directive
