import StackTemplate.Proofs.CommentExtent

/-! Texts without comments are the ones that stripping leaves as they are, and it gives
nothing else: a second run meets the characters the first one kept in the scopes the
first one had, so no slashes come together and no quote opens another literal. -/
namespace StackTemplate.Comment

variable {text rest : Text} {place : Nat} {scope : Scope}

/-- The scope in which what follows is read again. The comment is gone by then. -/
def Scope.again : Scope → Scope
  | .comment => .code
  | scope => scope

theorem length_stripFrom_le (scope : Scope) (text : Text) :
    (stripFrom scope text).length ≤ text.length := by
  fun_induction stripFrom scope text <;> simp only [List.length_cons, List.length_nil] <;> omega

/-- A slash that was kept is followed by what followed it. -/
theorem head_stripFrom_code (single : rest.head? ≠ some '/') :
    (stripFrom .code rest).head? = rest.head? := by
  cases rest with
  | nil => rfl
  | cons c rest =>
    by_cases quoted : c = '"'
    · subst quoted
      rfl
    · rw [stripFrom_code quoted fun slash => absurd (by rw [slash]; rfl) single]
      rfl

/-- Reading what was kept goes through the same scopes and keeps it all. -/
theorem stripFrom_again (scope : Scope) (text : Text) :
    stripFrom scope.again (stripFrom scope text) = stripFrom scope text := by
  fun_induction stripFrom scope text with
  | case1 scope => rw [stripFrom]
  | case2 rest ih => exact ih
  | case3 rest ih => exact congrArg ('"' :: ·) ih
  | case4 c rest single unquoted ih =>
    have apart : c = '/' → (stripFrom .code rest).head? ≠ some '/' := by
      intro slash
      have next : rest.head? ≠ some '/' := by
        intro followed
        obtain ⟨more, rfl⟩ := List.head?_eq_some_iff.mp followed
        exact single more slash rfl
      rwa [head_stripFrom_code next]
    exact (stripFrom_code unquoted apart).trans (congrArg (c :: ·) ih)
  | case5 rest ih => exact congrArg ('\\' :: ·) ih
  | case6 rest ih => exact congrArg ('"' :: ·) ih
  | case7 c rest plain unquoted ih =>
    exact (stripFrom_string plain unquoted _).trans (congrArg (c :: ·) ih)
  | case8 c rest ih => exact (stripFrom.eq_8 c _).trans (congrArg (c :: ·) ih)
  | case9 rest ih => exact congrArg ('\n' :: ·) ih
  | case10 c rest inLine ih => exact ih

/-- Where nothing is dropped, no comment begins. -/
theorem clear_of_stripFrom (stands : Stands text place scope) (here : text.drop place = rest)
    (same : stripFrom scope rest = rest) : ∀ later, place ≤ later → ¬Begins text later := by
  induction rest generalizing place scope with
  | nil =>
    intro later after
    have ended : text.length ≤ later := Nat.le_trans (List.drop_eq_nil_iff.mp here) after
    exact not_begins_of_ne (by simp [List.getElem?_eq_none ended])
  | cons c rest ih =>
    cases fate stands here with
    | kept next step stands clear shown ended =>
      intro later after
      rcases Nat.eq_or_lt_of_le after with rfl | beyond
      · exact clear
      · have rest_same : stripFrom next rest = rest := (List.cons.inj (step.symm.trans same)).2
        exact ih stands (Text.drop_cons here).2 rest_same later beyond
    | dropped step stands inLine begins =>
      have shorter := length_stripFrom_le .comment rest
      rw [step.symm.trans same, List.length_cons] at shorter
      omega

/-- Exactly the texts in which no comment begins stay as they are. -/
theorem strip_eq_self_iff : strip text = text ↔ ∀ place, ¬Begins text place := by
  constructor
  · intro same place
    exact clear_of_stripFrom (stands_start text) rfl same place (Nat.zero_le place)
  · intro clear
    have kept {start : Nat} {lines keeps : List Text} (cut : CutLines text start lines keeps) :
        keeps = lines := by
      induction cut with
      | nil start => rfl
      | cons cut later ih => rw [cut.stops.resolve_right (clear _), ih]
    exact Text.lines_injective (kept (strip_cutLines text))

/-- Stripping once is enough, and no comment begins anywhere in what it gives. -/
theorem strip_strip (text : Text) :
    strip (strip text) = strip text ∧ ∀ place, ¬Begins (strip text) place := by
  have again : strip (strip text) = strip text := stripFrom_again .code text
  exact ⟨again, strip_eq_self_iff.mp again⟩

end StackTemplate.Comment
