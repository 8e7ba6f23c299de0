import Mathlib
import StackTemplate.Json.Reader

/-! What a JSON text says does not hang on the line ends between its tokens. A text may be
loosened by line ends anywhere but inside a literal, a number or a keyword; every reader
then takes the loosened text the same way and stops at the same token. -/
namespace StackTemplate.Json

/-- The characters that numbers and keywords are made of. -/
def isWordChar (c : Char) : Bool :=
  c.isAlphanum || c == '+' || c == '-' || c == '.'

/-- The inside of a literal: a backslash goes together with the character after it, and
no other character is a quote. -/
inductive LiteralBody : Text → Prop where
  | nil : LiteralBody []
  | plain {c : Char} {body : Text} (unquoted : c ≠ '"') (unescaped : c ≠ '\\')
      (later : LiteralBody body) : LiteralBody (c :: body)
  | escaped (c : Char) {body : Text} (later : LiteralBody body) : LiteralBody ('\\' :: c :: body)

/-- The second text is the first with line ends put in between tokens. If a word goes up
to where the texts start, it may go on in them. -/
inductive Loosens : (joined : Bool) → Text → Text → Prop where
  | nil {joined : Bool} : Loosens joined [] []
  | lineEnd {joined : Bool} {text loose : Text}
      (apart : joined = true → ∀ c ∈ text.head?, isWordChar c = false)
      (later : Loosens joined text loose) : Loosens joined text ('\n' :: loose)
  | character {joined : Bool} {c : Char} {text loose : Text} (unquoted : c ≠ '"')
      (later : Loosens (isWordChar c) text loose) : Loosens joined (c :: text) (c :: loose)
  | literal {joined : Bool} {body text loose : Text} (closed : LiteralBody body)
      (later : Loosens false text loose) :
      Loosens joined ('"' :: body ++ '"' :: text) ('"' :: body ++ '"' :: loose)

/-- A loosened text that does not begin with a line end put in. -/
inductive Meets : Text → Text → Prop where
  | nil : Meets [] []
  | character {c : Char} {text loose : Text} (unquoted : c ≠ '"')
      (later : Loosens (isWordChar c) text loose) : Meets (c :: text) (c :: loose)
  | literal {body text loose : Text} (closed : LiteralBody body) (later : Loosens false text loose) :
      Meets ('"' :: body ++ '"' :: text) ('"' :: body ++ '"' :: loose)

/-- The way from a text to the rest of it leads through whole literals and past no slash
outside of them. -/
inductive Passes : Text → Text → Prop where
  | refl (text : Text) : Passes text text
  | character {c : Char} {text rest : Text} (unquoted : c ≠ '"') (unslashed : c ≠ '/')
      (later : Passes text rest) : Passes (c :: text) rest
  | literal {body text rest : Text} (closed : LiteralBody body) (later : Passes text rest) :
      Passes ('"' :: body ++ '"' :: text) rest

variable {joined : Bool} {text loose rest : Text} {c : Char}

theorem isWordChar_plain (word : isWordChar c = true) : c ≠ '"' ∧ c ≠ '/' ∧ c ≠ '\n' := by
  refine ⟨?_, ?_, ?_⟩ <;> rintro rfl <;> simp [isWordChar] at word

theorem isWordChar_of_isDigit (digit : c.isDigit = true) : isWordChar c = true := by
  simp [isWordChar, Char.isAlphanum, digit]

theorem isSpace_plain (space : isSpace c = true) : c ≠ '"' ∧ c ≠ '/' ∧ isWordChar c = false := by
  simp only [isSpace, Bool.or_eq_true, beq_iff_eq] at space
  rcases space with ((rfl | rfl) | rfl) | rfl <;> decide

theorem LiteralBody.append {body more : Text} (closed : LiteralBody body) (later : LiteralBody more) :
    LiteralBody (body ++ more) := by
  induction closed with
  | nil => exact later
  | plain unquoted unescaped _ ih => exact .plain unquoted unescaped ih
  | escaped c _ ih => exact .escaped c ih

/-- A literal has one end. -/
theorem LiteralBody.unique {body body' rest' : Text} (closed : LiteralBody body)
    (closed' : LiteralBody body') (same : body ++ '"' :: rest = body' ++ '"' :: rest') :
    body = body' ∧ rest = rest' := by
  induction closed generalizing body' with
  | nil =>
    cases closed' with
    | nil => simpa using same
    | plain unquoted _ _ => exact absurd (List.cons.inj same).1.symm unquoted
    | escaped c _ => simp at same
  | plain unquoted unescaped _ ih =>
    cases closed' with
    | nil => exact absurd (List.cons.inj same).1 unquoted
    | plain _ _ later' =>
      obtain ⟨rfl, tails⟩ := List.cons.inj same
      obtain ⟨rfl, rfl⟩ := ih later' tails
      exact ⟨rfl, rfl⟩
    | escaped c _ => exact absurd (List.cons.inj same).1 unescaped
  | escaped c _ ih =>
    cases closed' with
    | nil => simp at same
    | plain _ unescaped _ => exact absurd (List.cons.inj same).1.symm unescaped
    | escaped _ later' =>
      obtain ⟨rfl, tails⟩ := List.cons.inj (List.cons.inj same).2
      obtain ⟨rfl, rfl⟩ := ih later' tails
      exact ⟨rfl, rfl⟩

theorem Passes.trans {further : Text} (first : Passes text rest) (second : Passes rest further) :
    Passes text further := by
  induction first with
  | refl => exact second
  | character unquoted unslashed _ ih => exact .character unquoted unslashed (ih second)
  | literal closed _ ih => exact .literal closed (ih second)

theorem passes_dropWhile {p : Char → Bool} (plain : ∀ c, p c = true → c ≠ '"' ∧ c ≠ '/') (text : Text) :
    Passes text (text.dropWhile p) := by
  induction text with
  | nil => exact .refl []
  | cons c text ih =>
    by_cases held : p c = true
    · rw [List.dropWhile_cons_of_pos held]
      exact .character (plain c held).1 (plain c held).2 ih
    · rw [List.dropWhile_cons_of_neg held]
      exact .refl _

theorem passes_skip (text : Text) : Passes text (skipSpaces text) :=
  passes_dropWhile (fun _ space => ⟨(isSpace_plain space).1, (isSpace_plain space).2.1⟩) text

theorem Meets.loosens (meets : Meets text loose) : Loosens joined text loose := by
  cases meets with
  | nil => exact .nil
  | character unquoted later => exact .character unquoted later
  | literal closed later => exact .literal closed later

theorem Meets.head (meets : Meets text loose) : loose.head? = text.head? := by
  cases meets <;> rfl

theorem Loosens.length_le (loosens : Loosens joined text loose) : text.length ≤ loose.length := by
  induction loosens with
  | nil => exact Nat.le_refl 0
  | lineEnd _ _ ih => exact Nat.le_succ_of_le ih
  | character _ _ ih => exact Nat.succ_le_succ ih
  | literal _ _ ih =>
    simp only [List.length_cons, List.length_append]
    omega

theorem Loosens.lineEnds (loosens : Loosens joined text loose)
    (apart : joined = true → ∀ c ∈ text.head?, isWordChar c = false) (count : Nat) :
    Loosens joined text (List.replicate count '\n' ++ loose) := by
  induction count with
  | zero => exact loosens
  | succ count ih => exact .lineEnd apart ih

/-- Where no word goes on, a line end is as good as where one does. -/
theorem Loosens.parted (loosens : Loosens joined text loose) : Loosens false text loose := by
  induction loosens with
  | nil => exact .nil
  | lineEnd _ _ ih => exact .lineEnd (by simp) ih
  | character unquoted later _ => exact .character unquoted later
  | literal closed later _ => exact .literal closed later

/-- Line ends put in are skipped with the spaces that were there. -/
theorem Loosens.skip (loosens : Loosens joined text loose) : Meets (skipSpaces text) (skipSpaces loose) := by
  induction loosens with
  | nil => exact .nil
  | lineEnd _ _ ih => exact ih
  | @character joined c text loose unquoted later ih =>
    by_cases space : isSpace c = true
    · rw [skipSpaces, skipSpaces, List.dropWhile_cons_of_pos space, List.dropWhile_cons_of_pos space]
      exact ih
    · rw [skipSpaces, skipSpaces, List.dropWhile_cons_of_neg space, List.dropWhile_cons_of_neg space]
      exact .character unquoted later
  | literal closed later _ => exact .literal closed later

/-- Inside a word nothing is put in. -/
theorem Loosens.inWord (word : isWordChar c = true) (loosens : Loosens true (c :: text) loose) :
    ∃ left, loose = c :: left ∧ Loosens true text left := by
  cases loosens with
  | lineEnd apart later => simp [word] at apart
  | character unquoted later => exact ⟨_, rfl, word ▸ later⟩
  | literal closed later => cases word

/-- A loosened text begins as before or with a line end. -/
theorem Loosens.head (loosens : Loosens joined text loose) :
    loose.head? = text.head? ∨ loose.head? = some '\n' := by
  cases loosens with
  | nil => exact .inl rfl
  | lineEnd _ _ => exact .inr rfl
  | character _ _ => exact .inl rfl
  | literal _ _ => exact .inl rfl

/-- A text does or does not begin with a character of some kind. -/
theorem head_cases (P : Char → Prop) (text : Text) :
    (∀ c ∈ text.head?, ¬P c) ∨ ∃ c more, text = c :: more ∧ P c := by
  cases text with
  | nil => exact .inl (by simp)
  | cons c more =>
    by_cases held : P c
    · exact .inr ⟨c, more, rfl, held⟩
    · exact .inl (by rintro c ⟨⟩; exact held)

theorem Loosens.starts {P : Char → Prop} (loosens : Loosens joined text loose) (lineEnd : P '\n')
    (starts : ∀ c ∈ text.head?, P c) : ∀ c ∈ loose.head?, P c := by
  rcases loosens.head with same | broken
  · rwa [same]
  · rw [broken]
    rintro c ⟨⟩
    exact lineEnd

theorem Loosens.digits (loosens : Loosens true text loose) :
    loose.takeWhile Char.isDigit = text.takeWhile Char.isDigit ∧
      Loosens true (text.dropWhile Char.isDigit) (loose.dropWhile Char.isDigit) := by
  induction text generalizing loose with
  | nil =>
    cases loosens with
    | nil => exact ⟨rfl, .nil⟩
    | lineEnd apart later => exact ⟨rfl, .lineEnd apart later⟩
  | cons c text ih =>
    by_cases digit : c.isDigit = true
    · obtain ⟨left, rfl, later⟩ := loosens.inWord (isWordChar_of_isDigit digit)
      obtain ⟨same, stops⟩ := ih later
      rw [List.takeWhile_cons_of_pos digit, List.takeWhile_cons_of_pos digit, same,
        List.dropWhile_cons_of_pos digit, List.dropWhile_cons_of_pos digit]
      exact ⟨rfl, stops⟩
    · have stopped : loose.takeWhile Char.isDigit = [] ∧ loose.dropWhile Char.isDigit = loose := by
        cases loosens with
        | lineEnd apart later => exact ⟨rfl, rfl⟩
        | character unquoted later =>
          exact ⟨List.takeWhile_cons_of_neg digit, List.dropWhile_cons_of_neg digit⟩
        | literal closed later => exact ⟨rfl, rfl⟩
      rw [stopped.1, stopped.2, List.takeWhile_cons_of_neg digit, List.dropWhile_cons_of_neg digit]
      exact ⟨rfl, loosens⟩

/-- A reading that leads up to `rest`, and to the same value however the text is loosened.
The relations say how much the text it starts from, and what it leaves, may be loosened. -/
structure Persists (start : Text → Text → Prop) (read : Text → Reading α) (text : Text) (value : α)
    (rest : Text) (stop : Text → Text → Prop) : Prop where
  passes : Passes text rest
  again : ∀ loose, start text loose → ∃ left, read loose = .ok (value, left) ∧ stop rest left

namespace Persists

variable {start middle stop : Text → Text → Prop} {read : Text → Reading α} {value : α}

/-- What does not look at the text at all. -/
theorem done (ends : ∀ text, read text = .ok (value, text)) : Persists start read text value text start :=
  ⟨.refl text, fun loose loosens => ⟨loose, ends loose, loosens⟩⟩

theorem as (persists : Persists start read text value rest stop) (f : α → β) :
    Persists start (fun text => (read text).as f) text (f value) rest stop where
  passes := persists.passes
  again := by
    intro loose loosens
    obtain ⟨left, ran, stops⟩ := persists.again loose loosens
    exact ⟨left, by rw [ran]; rfl, stops⟩

/-- Only what is read from loosened texts counts. -/
theorem congr {read' : Text → Reading α} (persists : Persists start read text value rest stop)
    (same : ∀ loose, start text loose → read' loose = read loose) :
    Persists start read' text value rest stop where
  passes := persists.passes
  again := by
    intro loose loosens
    rw [same loose loosens]
    exact persists.again loose loosens

theorem weaken {start' stop' : Text → Text → Prop} (persists : Persists start read text value rest stop)
    (before : ∀ {loose}, start' text loose → start text loose)
    (after : ∀ {left}, stop rest left → stop' rest left) :
    Persists start' read text value rest stop' where
  passes := persists.passes
  again := by
    intro loose loosens
    obtain ⟨left, ran, stops⟩ := persists.again loose (before loosens)
    exact ⟨left, ran, after stops⟩

/-- A loosened text is no shorter, so fuel that is measured by the text does not run out
sooner. -/
theorem fueled {read : Nat → Text → Reading α}
    (persists : ∀ fuel, text.length + 1 ≤ fuel → Persists Meets (read fuel) text value rest stop) :
    Persists Meets (fun text => read (text.length + 1) text) text value rest stop where
  passes := (persists _ (Nat.le_refl _)).passes
  again := by
    intro loose meets
    have loosens : Loosens false text loose := meets.loosens
    exact (persists _ (Nat.succ_le_succ loosens.length_le)).again loose meets

/-- Reading goes on behind a character of a word. -/
theorem word (isWord : isWordChar c = true)
    (persists : Persists (Loosens true) (fun text => read (c :: text)) text value rest stop) :
    Persists (Loosens true) read (c :: text) value rest stop where
  passes := .character (isWordChar_plain isWord).1 (isWordChar_plain isWord).2.1 persists.passes
  again := by
    intro loose loosens
    obtain ⟨left, rfl, later⟩ := loosens.inWord isWord
    exact persists.again left later

/-- Reading goes on behind digits. -/
theorem digits (next : Text → Text → Reading α)
    (persists : Persists (Loosens true) (next (text.takeWhile Char.isDigit))
      (text.dropWhile Char.isDigit) value rest stop) :
    Persists (Loosens true) (fun text => next (text.takeWhile Char.isDigit) (text.dropWhile Char.isDigit))
      text value rest stop where
  passes := by
    refine (passes_dropWhile (fun c digit => ?_) text).trans persists.passes
    have plain := isWordChar_plain (isWordChar_of_isDigit digit)
    exact ⟨plain.1, plain.2.1⟩
  again := by
    intro loose loosens
    obtain ⟨same, later⟩ := loosens.digits
    obtain ⟨left, ran, stops⟩ := persists.again _ later
    exact ⟨left, by rw [same]; exact ran, stops⟩

/-- Reading goes on behind spaces. -/
theorem skip (persists : Persists Meets read (skipSpaces text) value rest stop) :
    Persists (Loosens joined) (fun text => read (skipSpaces text)) text value rest stop where
  passes := (passes_skip text).trans persists.passes
  again := fun _ loosens => persists.again _ loosens.skip

/-- Reading goes on behind a character that is no quote. -/
theorem mark (unquoted : c ≠ '"') (unslashed : c ≠ '/') (kind : isWordChar c = joined)
    (persists : Persists (Loosens joined) (fun text => read (c :: text)) text value rest stop) :
    Persists Meets read (c :: text) value rest stop where
  passes := .character unquoted unslashed persists.passes
  again := by
    intro loose meets
    cases meets with
    | character _ later => exact persists.again _ (kind ▸ later)
    | literal closed later => exact absurd rfl unquoted

/-- Reading goes on behind a literal. -/
theorem literal {body : Text} (closed : LiteralBody body)
    (persists : Persists (Loosens false) (fun text => read ('"' :: body ++ '"' :: text)) text value rest stop) :
    Persists Meets read ('"' :: body ++ '"' :: text) value rest stop where
  passes := .literal closed persists.passes
  again := by
    intro loose meets
    generalize whole : '"' :: body ++ '"' :: text = met at meets
    cases meets with
    | nil => cases whole
    | character unquoted _ => exact absurd (List.cons.inj whole).1.symm unquoted
    | literal closed' later =>
      obtain ⟨rfl, rfl⟩ := closed.unique closed' (List.cons.inj whole).2
      exact persists.again _ later

end Persists

namespace Gathered

variable {negative down : Bool} {number : Gathered} {value : Number} {start : Text → Text → Prop}

theorem real_persists (ran : number.real negative text = .ok (value, rest)) :
    Persists start (number.real negative) text value rest start := by
  unfold real at ran
  split at ran
  · next x found =>
    cases ran
    exact .done fun other => by rw [real, found]
  · cases ran

theorem whole_persists (ran : number.whole negative text = .ok (value, rest)) :
    Persists start (number.whole negative) text value rest start := by
  unfold whole at ran
  split at ran
  · next fits =>
    cases ran
    exact .done fun other => by rw [whole, if_pos fits]
  · next misfits =>
    exact (real_persists ran).congr fun loose _ => by rw [whole, if_neg misfits]

theorem shifted_persists {digits : Text}
    (ran : number.shifted negative down digits text = .ok (value, rest)) :
    Persists start (number.shifted negative down digits) text value rest start := by
  unfold shifted at ran
  simp only at ran
  split at ran
  · next huge =>
    split at ran
    · cases ran
    · next vanishes =>
      cases ran
      exact .done fun other => by simp only [shifted, if_pos huge, if_neg vanishes]
  · next small =>
    exact (real_persists ran).congr fun loose _ => by simp only [shifted, if_neg small]

theorem readPower_persists (ran : number.readPower negative down text = .ok (value, rest)) :
    Persists (Loosens true) (number.readPower negative down) text value rest (Loosens true) := by
  cases text with
  | nil => cases ran
  | cons first more =>
    simp only [readPower] at ran
    split at ran
    · next digit =>
      refine (Persists.digits (number.shifted negative down) (shifted_persists ran)).congr ?_
      intro loose loosens
      obtain ⟨left, rfl, _⟩ := loosens.inWord (isWordChar_of_isDigit digit)
      exact if_pos digit
    · cases ran

theorem readExponent_unsigned (unsigned : ∀ c ∈ text.head?, ¬(c = '+' ∨ c = '-')) :
    number.readExponent negative text = number.readPower negative false text := by
  unfold readExponent
  split
  · exact absurd (.inl rfl) (unsigned '+' rfl)
  · exact absurd (.inr rfl) (unsigned '-' rfl)
  · rfl

theorem readExponent_persists (ran : number.readExponent negative text = .ok (value, rest)) :
    Persists (Loosens true) (number.readExponent negative) text value rest (Loosens true) := by
  rcases head_cases (fun c => c = '+' ∨ c = '-') text with unsigned | ⟨c, more, rfl, rfl | rfl⟩
  · rw [readExponent_unsigned unsigned] at ran
    refine (readPower_persists ran).congr fun loose loosens => ?_
    exact readExponent_unsigned (loosens.starts (by decide) unsigned)
  · exact .word rfl (readPower_persists ran)
  · exact .word rfl (readPower_persists ran)

theorem readAfterFraction_unmarked (unmarked : ∀ c ∈ text.head?, ¬(c = 'e' ∨ c = 'E')) :
    number.readAfterFraction negative text = number.real negative text := by
  cases text with
  | nil => rfl
  | cons c text => exact if_neg (unmarked c rfl)

theorem readAfterFraction_persists (ran : number.readAfterFraction negative text = .ok (value, rest)) :
    Persists (Loosens true) (number.readAfterFraction negative) text value rest (Loosens true) := by
  rcases head_cases (fun c => c = 'e' ∨ c = 'E') text with unmarked | ⟨c, more, rfl, rfl | rfl⟩
  · rw [readAfterFraction_unmarked unmarked] at ran
    refine (real_persists ran).congr fun loose loosens => ?_
    exact readAfterFraction_unmarked (loosens.starts (by decide) unmarked)
  · exact .word rfl (readExponent_persists ran)
  · exact .word rfl (readExponent_persists ran)

theorem readFraction_persists (ran : number.readFraction negative text = .ok (value, rest)) :
    Persists (Loosens true) (number.readFraction negative) text value rest (Loosens true) := by
  simp only [readFraction] at ran
  split at ran
  · cases ran
  · next full =>
    refine (Persists.digits (fun digits => (number.takeFraction digits).readAfterFraction negative)
      (readAfterFraction_persists ran)).congr fun loose loosens => ?_
    simp only [readFraction, loosens.digits.1, if_neg full]

theorem readAfterWhole_unmarked (unmarked : ∀ c ∈ text.head?, ¬(c = '.' ∨ c = 'e' ∨ c = 'E')) :
    number.readAfterWhole negative text = number.whole negative text := by
  cases text with
  | nil => rfl
  | cons c text =>
    have other := unmarked c rfl
    rw [readAfterWhole, if_neg fun point => other (.inl point), if_neg fun mark => other (.inr mark)]

theorem readAfterWhole_persists (ran : number.readAfterWhole negative text = .ok (value, rest)) :
    Persists (Loosens true) (number.readAfterWhole negative) text value rest (Loosens true) := by
  rcases head_cases (fun c => c = '.' ∨ c = 'e' ∨ c = 'E') text with
    unmarked | ⟨c, more, rfl, rfl | rfl | rfl⟩
  · rw [readAfterWhole_unmarked unmarked] at ran
    refine (whole_persists ran).congr fun loose loosens => ?_
    exact readAfterWhole_unmarked (loosens.starts (by decide) unmarked)
  · exact .word rfl (readFraction_persists ran)
  · exact .word rfl (readExponent_persists ran)
  · exact .word rfl (readExponent_persists ran)

end Gathered

open Gathered in
theorem readNumber_persists {negative : Bool} {value : Number}
    (ran : readNumber negative text = .ok (value, rest)) :
    Persists (Loosens true) (readNumber negative) text value rest (Loosens true) := by
  cases text with
  | nil => cases ran
  | cons c text =>
    simp only [readNumber] at ran
    split at ran
    · next zero =>
      subst zero
      split at ran
      · cases ran
      · next alone =>
        rw [Option.any_eq_true, not_exists] at alone
        refine .word rfl ((readAfterWhole_persists ran).congr fun loose loosens => ?_)
        have unjoined := loosens.starts (by decide) fun c first digit => alone c ⟨first, digit⟩
        simp only [readNumber, if_pos]
        refine if_neg fun joined => ?_
        obtain ⟨c, first, digit⟩ := (Option.any_eq_true ..).mp joined
        exact unjoined c first digit
    · next nonzero =>
      split at ran
      · next digit =>
        refine (Persists.digits (fun digits => (takeWhole _ digits).readAfterWhole negative)
          (readAfterWhole_persists ran)).congr fun loose loosens => ?_
        obtain ⟨left, rfl, _⟩ := loosens.inWord (isWordChar_of_isDigit digit)
        simp only [readNumber, if_neg nonzero, if_pos digit]
      · cases ran

theorem readWord_persists {word : Text} (letters : ∀ c ∈ word, isWordChar c = true)
    (ran : readWord word text = .ok ((), rest)) :
    Persists (Loosens true) (readWord word) text () rest (Loosens true) := by
  induction word generalizing text with
  | nil =>
    cases ran
    exact .done fun other => rfl
  | cons w word ih =>
    obtain ⟨isWord, later⟩ := List.forall_mem_cons.mp letters
    cases text with
    | nil => cases ran
    | cons c text =>
      simp only [readWord] at ran
      split at ran
      · next same =>
        subst same
        exact .word isWord ((ih later ran).congr fun loose _ => if_pos rfl)
      · cases ran

/-- A reading that takes part of a literal and does not look at what follows. -/
def Takes (read : Text → Reading α) (text : Text) (value : α) (rest : Text) : Prop :=
  ∃ taken, LiteralBody taken ∧ text = taken ++ rest ∧ ∀ other, read (taken ++ other) = .ok (value, other)

theorem hexValue?_plain {digit : Nat} (found : hexValue? c = some digit) : c ≠ '"' ∧ c ≠ '\\' := by
  constructor <;> rintro rfl <;> simp [hexValue?] at found

theorem readUnit_takes {unit : Nat} (ran : readUnit text = .ok (unit, rest)) :
    Takes readUnit text unit rest := by
  unfold readUnit at ran
  split at ran
  · next a b c d more =>
    split at ran
    · next first second third fourth foundA foundB foundC foundD =>
      cases ran
      refine ⟨[a, b, c, d], ?_, rfl, fun other => ?_⟩
      · have plain {c : Char} {digit : Nat} {body : Text} (found : hexValue? c = some digit) :
            LiteralBody body → LiteralBody (c :: body) :=
          .plain (hexValue?_plain found).1 (hexValue?_plain found).2
        exact plain foundA (plain foundB (plain foundC (plain foundD .nil)))
      · simp only [readUnit, List.cons_append, List.nil_append, foundA, foundB, foundC, foundD]
    · cases ran
  · cases ran

theorem readTrail_takes {high : Nat} {value : Char} (ran : readTrail high text = .ok (value, rest)) :
    Takes (readTrail high) text value rest := by
  unfold readTrail at ran
  split at ran
  · next more =>
    obtain ⟨low, left, unit, ended⟩ := Reading.andThen_eq_ok.mp ran
    obtain ⟨taken, closed, rfl, again⟩ := readUnit_takes unit
    split at ended
    · next paired =>
      obtain ⟨rfl, rfl⟩ := Prod.mk.inj (Except.ok.inj ended)
      refine ⟨'\\' :: 'u' :: taken, .escaped 'u' closed, rfl, fun other => ?_⟩
      simp only [readTrail, List.cons_append, again, Reading.andThen, if_pos paired]
    · cases ended
  · cases ran
  · cases ran

theorem readCode_takes {value : Char} (ran : readCode text = .ok (value, rest)) :
    Takes readCode text value rest := by
  obtain ⟨unit, left, first, ended⟩ := Reading.andThen_eq_ok.mp ran
  obtain ⟨taken, closed, rfl, again⟩ := readUnit_takes first
  split at ended
  · cases ended
  · next single =>
    split at ended
    · next high =>
      obtain ⟨trail, trailClosed, rfl, trailAgain⟩ := readTrail_takes ended
      refine ⟨taken ++ trail, closed.append trailClosed, (List.append_assoc ..).symm, fun other => ?_⟩
      simp only [readCode, List.append_assoc, again, Reading.andThen, if_neg single, if_pos high, trailAgain]
    · next low =>
      cases ended
      refine ⟨taken, closed, rfl, fun other => ?_⟩
      simp only [readCode, again, Reading.andThen, if_neg single, if_neg low]

/-- What follows a backslash is taken with it. -/
theorem readEscape_takes {value : Char} (ran : readEscape text = .ok (value, rest)) :
    ∃ c code, LiteralBody code ∧ text = c :: (code ++ rest) ∧
      ∀ other, readEscape (c :: (code ++ other)) = .ok (value, other) := by
  cases text with
  | nil => cases ran
  | cons c text =>
    by_cases coded : c = 'u'
    · subst coded
      obtain ⟨code, closed, rfl, again⟩ := readCode_takes ran
      exact ⟨'u', code, closed, rfl, again⟩
    · refine ⟨c, [], .nil, ?_⟩
      simp only [readEscape, if_neg coded, List.nil_append] at ran ⊢
      split_ifs at ran ⊢ <;> cases ran <;> exact ⟨rfl, fun _ => rfl⟩

/-- A literal is read alike whatever follows it. -/
theorem readStringBody_local {fuel : Nat} {value : Text}
    (ran : readStringBody fuel text = .ok (value, rest)) :
    ∃ body, LiteralBody body ∧ text = body ++ '"' :: rest ∧ ∀ fuel', body.length < fuel' →
      ∀ other, readStringBody fuel' (body ++ '"' :: other) = .ok (value, other) := by
  induction fuel generalizing text value with
  | zero => cases ran
  | succ fuel ih =>
    cases text with
    | nil => cases ran
    | cons c text =>
      simp only [readStringBody] at ran
      split at ran
      · next quoted =>
        subst quoted
        cases ran
        refine ⟨[], .nil, rfl, fun fuel' enough other => ?_⟩
        obtain ⟨more, rfl⟩ := Nat.exists_eq_succ_of_ne_zero (Nat.ne_of_gt enough)
        rfl
      · next unquoted =>
        split at ran
        · next backslash =>
          subst backslash
          obtain ⟨escaped, left, first, ended⟩ := Reading.andThen_eq_ok.mp ran
          obtain ⟨later, ranLater, rfl⟩ := Reading.as_eq_ok.mp ended
          obtain ⟨c, code, codeClosed, rfl, again⟩ := readEscape_takes first
          obtain ⟨body, closed, rfl, bodyAgain⟩ := ih ranLater
          refine ⟨'\\' :: c :: (code ++ body), .escaped c (codeClosed.append closed), by simp, ?_⟩
          intro fuel' enough other
          simp only [List.length_cons, List.length_append] at enough
          obtain ⟨fuel', rfl⟩ := Nat.exists_eq_succ_of_ne_zero (Nat.ne_zero_of_lt enough)
          simp only [readStringBody, List.cons_append, List.append_assoc, again, Reading.andThen,
            bodyAgain fuel' (by omega), Reading.as, if_neg unquoted, if_pos]
        · next unescaped =>
          split at ran
          · cases ran
          · next printable =>
            obtain ⟨later, ranLater, rfl⟩ := Reading.as_eq_ok.mp ran
            obtain ⟨body, closed, rfl, bodyAgain⟩ := ih ranLater
            refine ⟨c :: body, .plain unquoted unescaped closed, rfl, fun fuel' enough other => ?_⟩
            rw [List.length_cons] at enough
            obtain ⟨fuel', rfl⟩ := Nat.exists_eq_succ_of_ne_zero (Nat.ne_zero_of_lt enough)
            simp only [readStringBody, List.cons_append, bodyAgain fuel' (by omega), Reading.as,
              Reading.andThen, if_neg unquoted, if_neg unescaped, if_neg printable]

theorem readString_local {value : Text} (ran : readString text = .ok (value, rest)) :
    ∃ body, LiteralBody body ∧ text = body ++ '"' :: rest ∧
      ∀ other, readString (body ++ '"' :: other) = .ok (value, other) := by
  obtain ⟨body, closed, whole, again⟩ := readStringBody_local ran
  refine ⟨body, closed, whole, fun other => again _ ?_ other⟩
  rw [List.length_append]
  omega

/-- Exactly how items are read: one, and then the closing bracket or a comma and more. -/
theorem readItems_eq_ok_iff {readItem : Text → Reading Value} {fuel : Nat} {items : List Value} :
    readItems readItem (fuel + 1) text = .ok (items, rest) ↔
      ∃ item middle, readItem text = .ok (item, middle) ∧
        ((skipSpaces middle = ']' :: rest ∧ items = [item]) ∨
          ∃ after c more later, skipSpaces middle = ',' :: after ∧ skipSpaces after = c :: more ∧
            c ≠ ']' ∧ readItems readItem fuel (c :: more) = .ok (later, rest) ∧ items = item :: later) := by
  rw [readItems, Reading.andThen_eq_ok]
  refine exists_congr fun item => exists_congr fun middle => and_congr_right fun _ => ?_
  constructor
  · intro ended
    split at ended
    · next left closed =>
      cases ended
      exact .inl ⟨closed, rfl⟩
    · next after comma =>
      split at ended
      · cases ended
      · cases ended
      · next further met unclosed =>
        obtain ⟨later, ran, rfl⟩ := Reading.as_eq_ok.mp ended
        obtain ⟨c, more, first⟩ := List.exists_cons_of_ne_nil met
        exact .inr ⟨after, c, more, later, comma, first, fun same => unclosed more (same ▸ first),
          first ▸ ran, rfl⟩
    · cases ended
  · rintro (⟨closed, rfl⟩ | ⟨after, c, more, later, comma, met, unclosed, ran, rfl⟩)
    · simp only [closed]
    · simp only [comma, met]
      split
      · next nothing => cases nothing
      · next closed => exact absurd (List.cons.inj closed).1 unclosed
      · exact Reading.as_eq_ok.mpr ⟨later, ran, rfl⟩

/-- Exactly how an entry is read: a literal, a colon and a value. -/
theorem readEntry_eq_ok_iff {readItem : Text → Reading Value} {key : Text} {value : Value} :
    readEntry readItem text = .ok ((key, value), rest) ↔
      ∃ inside middle after, text = '"' :: inside ∧ readString inside = .ok (key, middle) ∧
        skipSpaces middle = ':' :: after ∧ readItem after = .ok (value, rest) := by
  constructor
  · intro ran
    unfold readEntry at ran
    split at ran
    · next inside =>
      obtain ⟨key, middle, first, ended⟩ := Reading.andThen_eq_ok.mp ran
      split at ended
      · next after colon =>
        obtain ⟨value, last, same⟩ := Reading.as_eq_ok.mp ended
        cases same
        exact ⟨inside, middle, after, rfl, first, colon, last⟩
      · cases ended
    · cases ran
  · rintro ⟨inside, middle, after, rfl, first, colon, last⟩
    refine Reading.andThen_eq_ok.mpr ⟨key, middle, first, ?_⟩
    simp only [colon]
    exact Reading.as_eq_ok.mpr ⟨value, last, rfl⟩

/-- Exactly how entries are read: one, and then the closing brace or a comma and more. -/
theorem readEntries_eq_ok_iff {readItem : Text → Reading Value} {fuel : Nat}
    {entries : List (Text × Value)} :
    readEntries readItem (fuel + 1) text = .ok (entries, rest) ↔
      ∃ entry middle, readEntry readItem text = .ok (entry, middle) ∧
        ((skipSpaces middle = '}' :: rest ∧ entries = [entry]) ∨
          ∃ after later, skipSpaces middle = ',' :: after ∧
            readEntries readItem fuel (skipSpaces after) = .ok (later, rest) ∧ entries = entry :: later) := by
  rw [readEntries, Reading.andThen_eq_ok]
  refine exists_congr fun entry => exists_congr fun middle => and_congr_right fun _ => ?_
  constructor
  · intro ended
    split at ended
    · next left closed =>
      cases ended
      exact .inl ⟨closed, rfl⟩
    · next after comma =>
      obtain ⟨later, ran, rfl⟩ := Reading.as_eq_ok.mp ended
      exact .inr ⟨after, later, comma, ran, rfl⟩
    · cases ended
  · rintro (⟨closed, rfl⟩ | ⟨after, later, comma, ran, rfl⟩)
    · simp only [closed]
    · simp only [comma]
      exact Reading.as_eq_ok.mpr ⟨later, ran, rfl⟩

/-- A mark that is met between tokens is met in every loosening. -/
theorem Loosens.meetsMark (loosens : Loosens joined text loose) (unquoted : c ≠ '"')
    (met : skipSpaces text = c :: rest) :
    ∃ left, skipSpaces loose = c :: left ∧ Loosens (isWordChar c) rest left := by
  have meets := loosens.skip
  rw [met] at meets
  generalize skipSpaces loose = further at meets
  cases meets with
  | character _ later => exact ⟨_, rfl, later⟩
  | literal closed later => exact absurd rfl unquoted

theorem passes_mark (unquoted : c ≠ '"') (unslashed : c ≠ '/') (met : skipSpaces text = c :: rest) :
    Passes text rest := by
  have skipped := passes_skip text
  rw [met] at skipped
  exact skipped.trans (.character unquoted unslashed (.refl rest))

section Containers

variable {readItem : Text → Reading Value}
  (itemPersists : ∀ {text item rest}, readItem text = .ok (item, rest) →
    Persists (Loosens false) readItem text item rest (Loosens false))

include itemPersists

theorem readItems_persists {fuel fuel' : Nat} {items : List Value} (enough : fuel ≤ fuel')
    (ran : readItems readItem fuel text = .ok (items, rest)) :
    Persists (Loosens false) (readItems readItem fuel') text items rest (Loosens false) := by
  induction fuel generalizing fuel' text items with
  | zero => cases ran
  | succ fuel ih =>
    obtain ⟨fuel', rfl⟩ := Nat.exists_eq_add_of_le' (Nat.le_trans (Nat.succ_pos fuel) enough)
    obtain ⟨item, middle, first, ended⟩ := readItems_eq_ok_iff.mp ran
    have here := itemPersists first
    rcases ended with ⟨closed, rfl⟩ | ⟨after, c, more, later, comma, met, unclosed, ranLater, rfl⟩
    · refine ⟨here.passes.trans (passes_mark (by decide) (by decide) closed), fun loose loosens => ?_⟩
      obtain ⟨left, again, between⟩ := here.again loose loosens
      obtain ⟨last, closedAgain, stops⟩ := between.meetsMark (by decide) closed
      exact ⟨last, readItems_eq_ok_iff.mpr ⟨item, left, again, .inl ⟨closedAgain, rfl⟩⟩, stops⟩
    · have rests := ih (Nat.le_of_succ_le_succ enough) ranLater
      have toNext := passes_skip after
      rw [met] at toNext
      refine ⟨here.passes.trans ((passes_mark (by decide) (by decide) comma).trans
        (toNext.trans rests.passes)), fun loose loosens => ?_⟩
      obtain ⟨left, again, between⟩ := here.again loose loosens
      obtain ⟨next, commaAgain, behind⟩ := between.meetsMark (by decide) comma
      have meets := behind.skip
      rw [met] at meets
      obtain ⟨moreAgain, metAgain⟩ := List.head?_eq_some_iff.mp meets.head
      obtain ⟨last, laterAgain, stops⟩ := rests.again _ meets.loosens
      rw [metAgain] at laterAgain
      exact ⟨last, readItems_eq_ok_iff.mpr ⟨item, left, again, .inr
        ⟨next, c, moreAgain, later, commaAgain, metAgain, unclosed, laterAgain, rfl⟩⟩, stops⟩

theorem readEntry_persists {entry : Text × Value} (ran : readEntry readItem text = .ok (entry, rest)) :
    Persists Meets (readEntry readItem) text entry rest (Loosens false) := by
  obtain ⟨inside, middle, after, rfl, key, colon, last⟩ := readEntry_eq_ok_iff.mp ran
  obtain ⟨body, closed, rfl, keyAgain⟩ := readString_local key
  have value := itemPersists last
  refine .literal closed ⟨(passes_mark (by decide) (by decide) colon).trans value.passes, ?_⟩
  intro loose loosens
  obtain ⟨next, colonAgain, behind⟩ := loosens.meetsMark (by decide) colon
  obtain ⟨left, valueAgain, stops⟩ := value.again next behind
  exact ⟨left, readEntry_eq_ok_iff.mpr ⟨_, loose, next, rfl, keyAgain loose, colonAgain, valueAgain⟩, stops⟩

theorem readEntries_persists {fuel fuel' : Nat} {entries : List (Text × Value)} (enough : fuel ≤ fuel')
    (ran : readEntries readItem fuel text = .ok (entries, rest)) :
    Persists Meets (readEntries readItem fuel') text entries rest (Loosens false) := by
  induction fuel generalizing fuel' text entries with
  | zero => cases ran
  | succ fuel ih =>
    obtain ⟨fuel', rfl⟩ := Nat.exists_eq_add_of_le' (Nat.le_trans (Nat.succ_pos fuel) enough)
    obtain ⟨entry, middle, first, ended⟩ := readEntries_eq_ok_iff.mp ran
    have here := readEntry_persists itemPersists first
    rcases ended with ⟨closed, rfl⟩ | ⟨after, later, comma, ranLater, rfl⟩
    · refine ⟨here.passes.trans (passes_mark (by decide) (by decide) closed), fun loose meets => ?_⟩
      obtain ⟨left, again, between⟩ := here.again loose meets
      obtain ⟨last, closedAgain, stops⟩ := between.meetsMark (by decide) closed
      exact ⟨last, readEntries_eq_ok_iff.mpr ⟨entry, left, again, .inl ⟨closedAgain, rfl⟩⟩, stops⟩
    · have rests := ih (Nat.le_of_succ_le_succ enough) ranLater
      refine ⟨here.passes.trans ((passes_mark (by decide) (by decide) comma).trans
        ((passes_skip after).trans rests.passes)), fun loose meets => ?_⟩
      obtain ⟨left, again, between⟩ := here.again loose meets
      obtain ⟨next, commaAgain, behind⟩ := between.meetsMark (by decide) comma
      obtain ⟨last, laterAgain, stops⟩ := rests.again _ behind.skip
      exact ⟨last, readEntries_eq_ok_iff.mpr ⟨entry, left, again, .inr
        ⟨next, later, commaAgain, laterAgain, rfl⟩⟩, stops⟩

end Containers

theorem skipSpaces_skipSpaces (text : Text) : skipSpaces (skipSpaces text) = skipSpaces text :=
  List.dropWhile_idempotent ..

theorem readValue_skip (depth : Nat) (text : Text) :
    readValue depth (skipSpaces text) = readValue depth text := by
  rw [readValue, readValue, skipSpaces_skipSpaces]

theorem skipSpaces_cons (nonspace : isSpace c = false) (text : Text) : skipSpaces (c :: text) = c :: text :=
  List.dropWhile_cons_of_neg (by simp [nonspace])

theorem isSpace_head {more : Text} (met : skipSpaces text = c :: more) : isSpace c = false := by
  have first := List.head?_dropWhile_not isSpace text
  rw [← skipSpaces, met] at first
  simpa using first

/-- What a value can begin with. Arrays and objects take one level of the depth. -/
theorem readValue_first {depth : Nat} {value : Value} {more : Text} (met : skipSpaces text = c :: more)
    (ran : readValue depth text = .ok (value, rest)) :
    c = 'n' ∨ c = 't' ∨ c = 'f' ∨ c = '-' ∨ c.isDigit = true ∨ c = '"' ∨
      ∃ inner, depth = inner + 1 ∧ (c = '[' ∨ c = '{') := by
  rw [readValue, met] at ran
  simp only at ran
  split_ifs at ran with isNull isTrue isFalse isMinus isDigit isQuote isBracket isBrace
  · exact .inl isNull
  · exact .inr (.inl isTrue)
  · exact .inr (.inr (.inl isFalse))
  · exact .inr (.inr (.inr (.inl isMinus)))
  · exact .inr (.inr (.inr (.inr (.inl isDigit))))
  · exact .inr (.inr (.inr (.inr (.inr (.inl isQuote)))))
  · cases depth with
    | zero => cases ran
    | succ inner => exact .inr (.inr (.inr (.inr (.inr (.inr ⟨inner, rfl, .inl isBracket⟩)))))
  · cases depth with
    | zero => cases ran
    | succ inner => exact .inr (.inr (.inr (.inr (.inr (.inr ⟨inner, rfl, .inr isBrace⟩)))))

/-- Reads what an array or object holds: nothing up to the closer, or something that does
not begin with it. -/
def readEnclosed (closer : Char) (empty : Value) (inside : Text → Reading Value) (text : Text) :
    Reading Value :=
  match skipSpaces text with
  | [] => .error []
  | c :: more => if c = closer then .ok (empty, more) else inside (c :: more)

theorem readEnclosed_persists {closer : Char} {empty value : Value} {inside : Text → Reading Value}
    (plain : closer ≠ '"' ∧ closer ≠ '/' ∧ isWordChar closer = false)
    (persists : ∀ {met}, inside met = .ok (value, rest) →
      Persists Meets inside met value rest (Loosens false))
    (ran : readEnclosed closer empty inside text = .ok (value, rest)) :
    Persists (Loosens false) (readEnclosed closer empty inside) text value rest (Loosens false) := by
  rcases met : skipSpaces text with _ | ⟨c, more⟩
  · rw [readEnclosed, met] at ran
    cases ran
  · simp only [readEnclosed, met] at ran
    split at ran
    · next closes =>
      subst closes
      cases ran
      refine ⟨passes_mark plain.1 plain.2.1 met, fun loose loosens => ?_⟩
      obtain ⟨left, metAgain, stops⟩ := loosens.meetsMark plain.1 met
      exact ⟨left, by simp only [readEnclosed, metAgain, if_pos], stops.parted⟩
    · next unclosed =>
      have within := persists ran
      rw [← met] at within
      refine within.skip.congr fun loose loosens => ?_
      have meets := loosens.skip
      rw [met] at meets
      obtain ⟨further, metAgain⟩ := List.head?_eq_some_iff.mp meets.head
      simp only [readEnclosed, metAgain, if_neg unclosed]

section Enclosed

variable {depth : Nat} {value : Value}
  (inner : ∀ {text value rest}, readValue depth text = .ok (value, rest) →
    Persists (Loosens false) (readValue depth) text value rest (Loosens false))

include inner

theorem readArray_persists (ran : readValue (depth + 1) ('[' :: text) = .ok (value, rest)) :
    Persists Meets (readValue (depth + 1)) ('[' :: text) value rest (Loosens false) := by
  have opened (text : Text) : readValue (depth + 1) ('[' :: text) = readEnclosed ']' (.array [])
      (fun met => (readItems (readValue depth) (met.length + 1) met).as .array) text := by
    rw [readValue, skipSpaces_cons (by decide)]
    rcases met : skipSpaces text with _ | ⟨c, more⟩
    · simp [readEnclosed, met]
    · by_cases closed : c = ']' <;> simp [readEnclosed, met, closed]
  rw [opened] at ran
  refine .mark (by decide) (by decide) (by decide)
    ((readEnclosed_persists (by decide) (fun ranInside => ?_) ran).congr fun loose _ => opened loose)
  obtain ⟨items, found, rfl⟩ := Reading.as_eq_ok.mp ranInside
  have persists := Persists.fueled fun _ enough =>
    (readItems_persists inner enough found).weaken Meets.loosens id
  exact persists.as Value.array

theorem readObject_persists (ran : readValue (depth + 1) ('{' :: text) = .ok (value, rest)) :
    Persists Meets (readValue (depth + 1)) ('{' :: text) value rest (Loosens false) := by
  have opened (text : Text) : readValue (depth + 1) ('{' :: text) = readEnclosed '}' (.object [])
      (fun met => (readEntries (readValue depth) (met.length + 1) met).as fun entries =>
        .object (Value.ofEntries entries)) text := by
    rw [readValue, skipSpaces_cons (by decide)]
    rcases met : skipSpaces text with _ | ⟨c, more⟩
    · simp [readEnclosed, met]
    · by_cases closed : c = '}' <;> simp [readEnclosed, met, closed]
  rw [opened] at ran
  refine .mark (by decide) (by decide) (by decide)
    ((readEnclosed_persists (by decide) (fun ranInside => ?_) ran).congr fun loose _ => opened loose)
  obtain ⟨entries, found, rfl⟩ := Reading.as_eq_ok.mp ranInside
  have persists := Persists.fueled fun _ enough => readEntries_persists inner enough found
  exact persists.as _

end Enclosed

/-- A value that begins with a letter of a word or a minus is read alike behind it. -/
theorem readValue_opened {depth : Nat} {read : Text → Reading α} {f : α → Value} {value : Value}
    (word : isWordChar c = true) (opened : ∀ text, readValue depth (c :: text) = (read text).as f)
    (persists : ∀ {found}, read text = .ok (found, rest) →
      Persists (Loosens true) read text found rest (Loosens true))
    (ran : readValue depth (c :: text) = .ok (value, rest)) :
    Persists Meets (readValue depth) (c :: text) value rest (Loosens false) := by
  rw [opened] at ran
  obtain ⟨found, inside, rfl⟩ := Reading.as_eq_ok.mp ran
  have behind := ((persists inside).as f).congr fun loose _ => opened loose
  have plain := isWordChar_plain word
  exact (Persists.mark plain.1 plain.2.1 word behind).weaken id Loosens.parted

theorem readDigits_persists {depth : Nat} {value : Value} (digit : c.isDigit = true)
    (ran : readValue depth (c :: text) = .ok (value, rest)) :
    Persists Meets (readValue depth) (c :: text) value rest (Loosens false) := by
  have opened (text : Text) : readValue depth (c :: text) = (readNumber false (c :: text)).as .number := by
    have nonspace : isSpace c = false := by
      by_contra space
      cases (isWordChar_of_isDigit digit).symm.trans (isSpace_plain (by simpa using space)).2.2
    have other : c ≠ 'n' ∧ c ≠ 't' ∧ c ≠ 'f' ∧ c ≠ '-' := by
      refine ⟨?_, ?_, ?_, ?_⟩ <;> rintro rfl <;> cases digit
    rw [readValue, skipSpaces_cons nonspace]
    simp only [if_neg other.1, if_neg other.2.1, if_neg other.2.2.1, if_neg other.2.2.2, if_pos digit]
  rw [opened] at ran
  obtain ⟨found, inside, rfl⟩ := Reading.as_eq_ok.mp ran
  refine ((readNumber_persists inside).as Value.number).weaken Meets.loosens Loosens.parted |>.congr ?_
  intro loose meets
  obtain ⟨left, rfl⟩ := List.head?_eq_some_iff.mp meets.head
  exact opened left

theorem readLiteral_persists {depth : Nat} {value : Value}
    (ran : readValue depth ('"' :: text) = .ok (value, rest)) :
    Persists Meets (readValue depth) ('"' :: text) value rest (Loosens false) := by
  have opened (text : Text) : readValue depth ('"' :: text) = (readString text).as .string := by
    rw [readValue, skipSpaces_cons (by decide)]
    rfl
  rw [opened] at ran
  obtain ⟨found, inside, rfl⟩ := Reading.as_eq_ok.mp ran
  obtain ⟨body, closed, rfl, again⟩ := readString_local inside
  refine .literal closed (.done fun other => ?_)
  exact (opened _).trans (Reading.as_eq_ok.mpr ⟨found, again other, rfl⟩)

/-- A value is read alike however its text is loosened. -/
theorem readValue_persists {depth : Nat} {value : Value} (ran : readValue depth text = .ok (value, rest)) :
    Persists (Loosens joined) (readValue depth) text value rest (Loosens false) := by
  induction depth using Nat.strong_induction_on generalizing joined text value rest with
  | _ depth ih =>
    suffices met : Persists Meets (readValue depth) (skipSpaces text) value rest (Loosens false) from
      met.skip.congr fun loose _ => (readValue_skip depth loose).symm
    rw [← readValue_skip] at ran
    rcases found : skipSpaces text with _ | ⟨c, more⟩
    · rw [found, readValue] at ran
      cases ran
    · rw [found] at ran
      have met := skipSpaces_cons (isSpace_head found) more
      rcases readValue_first met ran with rfl | rfl | rfl | rfl | digit | rfl | ⟨inner, rfl, rfl | rfl⟩
      · have opened (text : Text) : readValue depth ('n' :: text) =
            (readWord ['u', 'l', 'l'] text).as fun _ => .null := by
          rw [readValue, skipSpaces_cons (by decide)]
          rfl
        exact readValue_opened (by decide) opened (readWord_persists (by simp [isWordChar])) ran
      · have opened (text : Text) : readValue depth ('t' :: text) =
            (readWord ['r', 'u', 'e'] text).as fun _ => .boolean true := by
          rw [readValue, skipSpaces_cons (by decide)]
          rfl
        exact readValue_opened (by decide) opened (readWord_persists (by simp [isWordChar])) ran
      · have opened (text : Text) : readValue depth ('f' :: text) =
            (readWord ['a', 'l', 's', 'e'] text).as fun _ => .boolean false := by
          rw [readValue, skipSpaces_cons (by decide)]
          rfl
        exact readValue_opened (by decide) opened (readWord_persists (by simp [isWordChar])) ran
      · have opened (text : Text) : readValue depth ('-' :: text) =
            (readNumber true text).as .number := by
          rw [readValue, skipSpaces_cons (by decide)]
          rfl
        exact readValue_opened (by decide) opened (fun ran => readNumber_persists ran) ran
      · exact readDigits_persists digit ran
      · exact readLiteral_persists ran
      · exact readArray_persists (ih inner (Nat.lt_succ_self inner)) ran
      · exact readObject_persists (ih inner (Nat.lt_succ_self inner)) ran

/-- A reader of whole texts goes by tokens: a text that it accepts leads through whole literals
and past no slash outside of them, and it has the same value however it is loosened. -/
structure Tokenwise (reader : Text → Except Nat Value) : Prop where
  passes : ∀ {text value}, reader text = .ok value → Passes text []
  loosened : ∀ {text loose value}, reader text = .ok value → Loosens false text loose →
    reader loose = .ok value

/-- A whole text has the same value however it is loosened. -/
theorem parse_loosened {depth : Nat} {value : Value} (accepted : parse depth text = .ok value) :
    Passes text [] ∧ ∀ loose, Loosens false text loose → parse depth loose = .ok value := by
  unfold parse at accepted
  split at accepted
  · cases accepted
  · next found rest ran =>
    split at accepted
    · next ended =>
      cases accepted
      have persists := @readValue_persists false _ _ _ _ ran
      refine ⟨persists.passes.trans (ended ▸ passes_skip rest), fun loose loosens => ?_⟩
      obtain ⟨left, again, stops⟩ := persists.again loose loosens
      have meets := stops.skip
      rw [ended] at meets
      have endedAgain : skipSpaces left = [] := List.head?_eq_none_iff.mp meets.head
      simp only [parse, again, endedAgain]
    · cases accepted

theorem tokenwise_parse (depth : Nat) : Tokenwise (parse depth) where
  passes accepted := (parse_loosened accepted).1
  loosened accepted := (parse_loosened accepted).2 _

end StackTemplate.Json
