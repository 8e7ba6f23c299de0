import Mathlib.Order.Bounds.Basic
import StackTemplate.Proofs.CheckedGrammar

/-! The closer that matches an opener, found by counting alone. From an opener on, the
bytes up to its closer are the shortest stretch that holds as many closers as openers;
before that there are always more openers. The search keeps one number, the depth, and
never looks further than the closer, so text behind a match changes nothing and text in
front of the opener only moves it. -/
namespace StackTemplate.Directive
open Text

/-- The byte offset of the closer that matches the opener at a byte offset. What the pair
encloses is found as `enclosed` finds it. -/
def closerOffset? (opener closer : Char) (text : Text) (opening : Nat) : Option Nat :=
  match cut? (opening + opener.utf8Size) text with
  | none => none
  | some (_, inner) =>
    (closing opener closer 0 inner).map fun (inside, _) => opening + opener.utf8Size + byteLength inside

/-- Two characters that can open and close: they differ, and each is one byte. -/
structure CanDelimit (opener closer : Char) : Prop where
  distinct : opener ≠ closer
  openerNarrow : opener.toNat < 128
  closerNarrow : closer.toNat < 128

/-- How often a character of one byte stands from the byte `first` to the byte `last`,
both included. -/
def occurrences (c : Char) (text : Text) (first last : Nat) : Nat :=
  (((bytes text).take (last + 1)).drop first).count c.toUInt8

/-- As many closers as openers stand from the byte `opening` to a later one. -/
structure LevelAt (opener closer : Char) (text : Text) (opening last : Nat) : Prop where
  after : opening < last
  inText : last < byteLength text
  even : occurrences opener text opening last = occurrences closer text opening last

/-- More openers than closers stand from the byte `opening` to the byte `last`. -/
def DeeperAt (opener closer : Char) (text : Text) (opening last : Nat) : Prop :=
  occurrences closer text opening last < occurrences opener text opening last

/-- A closer up to which openers outnumber closers and with which they no longer do. -/
structure Matches (opener closer : Char) (text : Text) (opening offset : Nat) : Prop where
  level : LevelAt opener closer text opening offset
  closes : (bytes text)[offset]? = some closer.toUInt8
  deeper : ∀ earlier, opening ≤ earlier → earlier < offset → DeeperAt opener closer text opening earlier

/-- The first `k` bytes close at most `depth` delimiters more than they open. -/
def KeepsOpen (opener closer : Char) (depth : Nat) (bytes : List UInt8) (k : Nat) : Prop :=
  (bytes.take k).count closer.toUInt8 ≤ depth + (bytes.take k).count opener.toUInt8

/-- How a search through bytes ends that starts at offset `i` with `depth + 1` delimiters
open: it finds nothing, or the byte with index `k` closes the last of them. -/
inductive SearchEnds (opener closer : Char) (depth i : Nat) (bytes : List UInt8) : Prop where
  | unclosed (ran : Checked.closerFrom opener closer (depth + 1) i bytes = some none)
      (keepsOpen : ∀ k, KeepsOpen opener closer depth bytes k)
  | closed (k : Nat) (ran : Checked.closerFrom opener closer (depth + 1) i bytes = some (some (i + k)))
      (closes : bytes[k]? = some closer.toUInt8)
      (keepsOpen : ∀ j ≤ k, KeepsOpen opener closer depth bytes j)
      (level : (bytes.take k).count closer.toUInt8 = depth + (bytes.take k).count opener.toUInt8)

variable {opener closer : Char} {text : Text} {opening offset : Nat}

/-- One byte moves the depth, and the search goes on from there. -/
theorem SearchEnds.cons {depth later i : Nat} {b : UInt8} {rest : List UInt8}
    (search : SearchEnds opener closer later (i + 1) rest)
    (ran : Checked.closerFrom opener closer (depth + 1) i (b :: rest) =
      Checked.closerFrom opener closer (later + 1) (i + 1) rest)
    (moved : depth + [b].count opener.toUInt8 = later + [b].count closer.toUInt8) :
    SearchEnds opener closer depth i (b :: rest) := by
  have counted (c : Char) (k : Nat) : ((b :: rest).take (k + 1)).count c.toUInt8 =
      [b].count c.toUInt8 + (rest.take k).count c.toUInt8 := by
    rw [List.take_succ_cons, ← List.singleton_append, List.count_append]
  have keeps {k : Nat} (inRest : ∀ j < k, KeepsOpen opener closer later rest j) :
      ∀ j ≤ k, KeepsOpen opener closer depth (b :: rest) j := by
    rintro (_ | j) upTo
    · simp [KeepsOpen]
    · have there := inRest j upTo
      unfold KeepsOpen at there ⊢
      rw [counted, counted]
      omega
  cases search with
  | unclosed found keepsOpen =>
    exact .unclosed (ran.trans found) fun k => keeps (fun j _ => keepsOpen j) k (Nat.le_refl k)
  | closed k found closes keepsOpen level =>
    refine .closed (k + 1) (by rw [ran, found, Nat.add_assoc, Nat.add_comm 1]) (by simpa using closes)
      (keeps fun j upTo => keepsOpen j (Nat.lt_succ_iff.mp upTo)) ?_
    rw [counted, counted, level]
    omega

namespace CanDelimit

theorem toUInt8_ne (pair : CanDelimit opener closer) : opener.toUInt8 ≠ closer.toUInt8 := by
  intro same
  have isCloser := (ofUInt8_eq_iff pair.closerNarrow).mpr same
  rw [(ofUInt8_eq_iff pair.openerNarrow).mpr rfl] at isCloser
  exact pair.distinct isCloser

/-- The search ends at the byte that closes the last open delimiter, if there is one. -/
theorem searchEnds (pair : CanDelimit opener closer) (depth i : Nat) (bytes : List UInt8) :
    SearchEnds opener closer depth i bytes := by
  induction bytes generalizing depth i with
  | nil => exact .unclosed rfl fun k => by simp [KeepsOpen]
  | cons b rest ih =>
    by_cases opens : Char.ofUInt8 b = opener
    · obtain rfl := (ofUInt8_eq_iff pair.openerNarrow).mp opens
      apply (ih (depth + 1) (i + 1)).cons
      · rw [Checked.closerFrom, if_pos opens]
      · simp [pair.toUInt8_ne]
    · have notOpener : b ≠ opener.toUInt8 := fun same =>
        opens ((ofUInt8_eq_iff pair.openerNarrow).mpr same)
      by_cases closes : Char.ofUInt8 b = closer
      · obtain rfl := (ofUInt8_eq_iff pair.closerNarrow).mp closes
        have ran : Checked.closerFrom opener closer (depth + 1) i (closer.toUInt8 :: rest) =
            if depth = 0 then some (some i) else Checked.closerFrom opener closer depth (i + 1) rest := by
          rw [Checked.closerFrom, if_neg opens, if_pos closes, minus?_add]
          rfl
        cases depth with
        | zero =>
          refine .closed 0 ran rfl (fun j upTo => ?_) rfl
          obtain rfl := Nat.le_zero.mp upTo
          exact Nat.zero_le _
        | succ depth =>
          apply (ih depth (i + 1)).cons ran
          simp [notOpener]
      · have notCloser : b ≠ closer.toUInt8 := fun same =>
          closes ((ofUInt8_eq_iff pair.closerNarrow).mpr same)
        apply (ih depth (i + 1)).cons
        · rw [Checked.closerFrom, if_neg opens, if_neg closes]
        · simp [notOpener, notCloser]

/-- Bytes are searched from the one after the opener. -/
theorem closerFrom_opened (pair : CanDelimit opener closer) (front inner : Text) :
    Checked.closerFrom opener closer 1 (byteLength front + 1) (bytes inner) =
      some (closerOffset? opener closer (front ++ opener :: inner) (byteLength front)) := by
  have size := utf8Size_narrow pair.openerNarrow
  have cut := cut?_append (front ++ [opener]) inner
  rw [byteLength_append, byteLength_cons, byteLength_nil, Nat.add_zero, List.append_assoc,
    List.singleton_append] at cut
  rw [Checked.closerFrom_bytes pair.openerNarrow pair.closerNarrow, closerOffset?, cut, size]

/-- A counter that goes through the bytes from the opener on finds its closer, and it is
never asked to fall below zero. -/
theorem closerFrom_opening (pair : CanDelimit opener closer)
    (opens : (bytes text)[opening]? = some opener.toUInt8) :
    Checked.closerFrom opener closer 0 opening ((bytes text).drop opening) =
      some (closerOffset? opener closer text opening) := by
  obtain ⟨front, inner, rfl, rfl⟩ := exists_of_getElem?_bytes pair.openerNarrow opens
  have isOpener := (ofUInt8_eq_iff pair.openerNarrow).mpr rfl
  rw [drop_bytes, bytes_cons_narrow pair.openerNarrow, Checked.closerFrom, if_pos isOpener,
    pair.closerFrom_opened]

/-- From the opener on, what is counted is the opener and the bytes after it. -/
theorem occurrences_opened (pair : CanDelimit opener closer) (c : Char) (front inner : Text) (k : Nat) :
    occurrences c (front ++ opener :: inner) (byteLength front) (byteLength front + k) =
      (opener.toUInt8 :: (bytes inner).take k).count c.toUInt8 := by
  have length : byteLength front + k + 1 - byteLength front = k + 1 := by omega
  rw [occurrences, List.drop_take, drop_bytes, bytes_cons_narrow pair.openerNarrow, length,
    List.take_succ_cons]

theorem openers_opened (pair : CanDelimit opener closer) (front inner : Text) (k : Nat) :
    occurrences opener (front ++ opener :: inner) (byteLength front) (byteLength front + k) =
      ((bytes inner).take k).count opener.toUInt8 + 1 := by
  rw [pair.occurrences_opened, List.count_cons_self]

theorem closers_opened (pair : CanDelimit opener closer) (front inner : Text) (k : Nat) :
    occurrences closer (front ++ opener :: inner) (byteLength front) (byteLength front + k) =
      ((bytes inner).take k).count closer.toUInt8 := by
  rw [pair.occurrences_opened, List.count_cons_of_ne pair.toUInt8_ne]

/-- Openers outnumber closers as long as what follows the opener does not close it. -/
theorem deeperAt_iff (pair : CanDelimit opener closer) (front inner : Text) (k : Nat) :
    DeeperAt opener closer (front ++ opener :: inner) (byteLength front) (byteLength front + k) ↔
      KeepsOpen opener closer 0 (bytes inner) k := by
  rw [DeeperAt, KeepsOpen, pair.openers_opened, pair.closers_opened, Nat.zero_add, Nat.lt_succ_iff]

/-- Whatever the search answers, counting bears it out. The search begins behind the opener,
so counts from the opener on are one opener ahead. -/
theorem closerOffset?_cases (pair : CanDelimit opener closer)
    (opens : (bytes text)[opening]? = some opener.toUInt8) :
    (closerOffset? opener closer text opening = none ∧
      ∀ last, opening ≤ last → DeeperAt opener closer text opening last) ∨
    ∃ offset, closerOffset? opener closer text opening = some offset ∧
      Matches opener closer text opening offset := by
  obtain ⟨front, inner, rfl, rfl⟩ := exists_of_getElem?_bytes pair.openerNarrow opens
  cases pair.searchEnds 0 (byteLength front + 1) (bytes inner) with
  | unclosed ran keepsOpen =>
    rw [pair.closerFrom_opened front inner] at ran
    refine .inl ⟨Option.some.inj ran, fun last after => ?_⟩
    obtain ⟨k, rfl⟩ := Nat.exists_eq_add_of_le after
    exact (pair.deeperAt_iff front inner k).mpr (keepsOpen k)
  | closed k ran closes keepsOpen level =>
    rw [pair.closerFrom_opened front inner, Nat.add_assoc] at ran
    refine .inr ⟨_, Option.some.inj ran, ⟨by omega, ?_, ?_⟩, ?_, ?_⟩
    · have inside := (List.getElem?_eq_some_iff.mp closes).1
      rw [length_bytes] at inside
      rw [byteLength_append, byteLength_cons, utf8Size_narrow pair.openerNarrow]
      omega
    · rw [pair.openers_opened, pair.closers_opened, Nat.add_comm 1, List.take_add_one, closes,
        Option.toList_some, List.count_append, List.count_append, List.count_singleton_self, level,
        List.count_cons_of_ne pair.toUInt8_ne.symm, List.count_nil, Nat.zero_add, Nat.add_zero]
    · rw [bytes_append, bytes_cons_narrow pair.openerNarrow, ← length_bytes,
        List.getElem?_append_right (by omega), Nat.add_sub_cancel_left, Nat.add_comm 1]
      exact closes
    · intro earlier after before
      obtain ⟨j, rfl⟩ := Nat.exists_eq_add_of_le after
      exact (pair.deeperAt_iff front inner j).mpr (keepsOpen j (by omega))

end CanDelimit

theorem DeeperAt.not_levelAt {last : Nat} (deeper : DeeperAt opener closer text opening last) :
    ¬LevelAt opener closer text opening last :=
  fun level => Nat.ne_of_gt deeper level.even

/-- Nothing before a match is level, so it is the first that is. -/
theorem Matches.isLeast (found : Matches opener closer text opening offset) :
    IsLeast {last | LevelAt opener closer text opening last} offset := by
  refine ⟨found.level, fun last level => ?_⟩
  by_contra before
  have deeper := found.deeper last (Nat.le_of_lt level.after) (Nat.lt_of_not_le before)
  exact deeper.not_levelAt level

/-- Text behind a match is never looked at. -/
theorem closerOffset?_extend (found : closerOffset? opener closer text opening = some offset)
    (more : Text) : closerOffset? opener closer (text ++ more) opening = some offset := by
  unfold closerOffset? at found ⊢
  cases cut : cut? (opening + opener.utf8Size) text with
  | none => simp [cut] at found
  | some parts =>
    obtain ⟨front, inner⟩ := parts
    obtain ⟨rfl, length⟩ := cut?_eq_some cut
    simp only [cut] at found
    obtain ⟨⟨inside, rest⟩, closed, same⟩ := Option.map_eq_some_iff.mp found
    rw [List.append_assoc, ← length, cut?_append]
    simp only [closing_extend closed more, Option.map_some]
    rw [length]
    exact congrArg some same

/-- Text in front moves a match by its length. -/
theorem closerOffset?_append_left (front : Text) :
    closerOffset? opener closer (front ++ text) (byteLength front + opening) =
      (closerOffset? opener closer text opening).map (byteLength front + ·) := by
  rw [closerOffset?, closerOffset?, Nat.add_assoc, cut?_append_left]
  cases cut? (opening + opener.utf8Size) text with
  | none => rfl
  | some parts =>
    simp only [Option.map_some, Option.map_map]
    congr 1
    funext ⟨inside, rest⟩
    simp only [Function.comp_apply, Nat.add_assoc]

/-- The closer of an opener is found by counting. It is the least place after the opener up
to which as many closers as openers stand, and none is found exactly if there is no such
place. It is a closer, openers outnumber closers at every place before it, text added
behind it makes no difference, and text added in front moves it. One counter over the bytes
gives the same answer. -/
theorem closerOffset_isLeast (pair : CanDelimit opener closer)
    (opens : (bytes text)[opening]? = some opener.toUInt8) :
    Checked.closerFrom opener closer 0 opening ((bytes text).drop opening) =
      some (closerOffset? opener closer text opening) ∧
    (∀ offset, closerOffset? opener closer text opening = some offset ↔
      IsLeast {last | LevelAt opener closer text opening last} offset) ∧
    (closerOffset? opener closer text opening = none ↔
      ∀ last, ¬LevelAt opener closer text opening last) ∧
    (∀ offset, closerOffset? opener closer text opening = some offset →
      (bytes text)[offset]? = some closer.toUInt8 ∧
      (∀ last, opening ≤ last → last < offset → DeeperAt opener closer text opening last) ∧
      ∀ more, closerOffset? opener closer (text ++ more) opening = some offset) ∧
    ∀ front, closerOffset? opener closer (front ++ text) (byteLength front + opening) =
      (closerOffset? opener closer text opening).map (byteLength front + ·) := by
  refine ⟨pair.closerFrom_opening opens, ?_⟩
  obtain ⟨nothing, deeper⟩ | ⟨found, same, matched⟩ := pair.closerOffset?_cases opens
  · have never (last : Nat) : ¬LevelAt opener closer text opening last := fun level =>
      (deeper last (Nat.le_of_lt level.after)).not_levelAt level
    refine ⟨fun offset => ?_, iff_of_true nothing never, fun offset other => ?_, closerOffset?_append_left⟩
    · exact iff_of_false (by simp [nothing]) fun least => never offset least.1
    · cases nothing.symm.trans other
  · refine ⟨fun offset => ?_, ?_, fun offset other => ?_, closerOffset?_append_left⟩
    · rw [same, Option.some.injEq]
      constructor
      · rintro rfl
        exact matched.isLeast
      · exact matched.isLeast.unique
    · exact iff_of_false (by simp [same]) fun never => never found matched.level
    · cases same.symm.trans other
      exact ⟨matched.closes, matched.deeper, closerOffset?_extend same⟩

/-- A brace behind a letter of two bytes, with a bracket that is never closed and another
letter of two bytes inside. A closing brace is left over, and more text does not matter. -/
theorem closerOffset_isLeast_wide_letters :
    let text := ['é', '{', '[', '{', 'ü', '}', '}', '}']
    closerOffset? '{' '}' text 2 = some 8 ∧
      IsLeast {last | LevelAt '{' '}' text 2 last} 8 ∧
      DeeperAt '{' '}' text 2 7 ∧
      closerOffset? '{' '}' (text ++ ['{', '}']) 2 = some 8 := by
  intro text
  have pair : CanDelimit '{' '}' := ⟨by decide, by decide, by decide⟩
  obtain ⟨-, least, -, found, -⟩ := @closerOffset_isLeast '{' '}' text 2 pair (by decide)
  have here : closerOffset? '{' '}' text 2 = some 8 := by decide
  obtain ⟨-, deeper, extend⟩ := found 8 here
  exact ⟨here, (least 8).mp here, deeper 7 (by decide) (by decide), extend _⟩

end StackTemplate.Directive
