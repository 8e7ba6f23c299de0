import Mathlib
import StackTemplate.Path

/-! What joining paths and taking their parents does, said of the names on a path. Joining puts
the names of both one behind the other; the parent lacks the last name, starts where the path
starts, and is the part of the path up to there. -/
namespace StackTemplate.Path

/-- The names on a path that lead anywhere: neither empty nor a single dot. -/
def names (path : Text) : List Text :=
  (components path).filter fun name => name ≠ [] ∧ name ≠ ['.']

/-- A path that ends with a name and not with a slash or a dot that could go. -/
def Tidy (path : Text) : Prop :=
  dropIdle path.reverse = path.reverse

variable {path name base front above : Text}

theorem components_append_slash (front back : Text) :
    components (front ++ '/' :: back) = components front ++ components back := by
  have nonempty (text : Text) : ∃ first more, components text = first :: more := by
    cases text with
    | nil => exact ⟨_, _, rfl⟩
    | cons c text =>
      unfold components
      split
      · exact ⟨_, _, rfl⟩
      · split <;> exact ⟨_, _, rfl⟩
  induction front with
  | nil => rfl
  | cons c front ih =>
    by_cases slash : c = '/'
    · simp [components, slash, ih]
    · obtain ⟨first, more, held⟩ := nonempty front
      simp [components, slash, ih, held]

theorem components_of_plain (plain : '/' ∉ name) : components name = [name] := by
  induction name with
  | nil => rfl
  | cons c name ih =>
    rw [List.mem_cons, not_or] at plain
    simp [components, Ne.symm plain.1, ih plain.2]

theorem names_append_slash (front back : Text) : names (front ++ '/' :: back) = names front ++ names back := by
  rw [names, components_append_slash, List.filter_append]
  rfl

theorem names_of_plain (plain : '/' ∉ name) (apart : name ≠ []) (dotless : name ≠ ['.']) :
    names name = [name] := by
  simp [names, components_of_plain plain, apart, dotless]

theorem isRelative_append (apart : front ≠ []) (rest : Text) :
    isRelative (front ++ rest) = isRelative front := by
  obtain ⟨c, front, rfl⟩ := List.exists_cons_of_ne_nil apart
  by_cases slash : c = '/' <;> simp [isRelative, slash]

theorem exists_of_absolute (absolute : isRelative path = false) : ∃ rest, path = '/' :: rest := by
  unfold isRelative at absolute
  split at absolute
  · exact ⟨_, rfl⟩
  · cases absolute

/-! ## Joining -/

/-- An absolute path is the same from everywhere. -/
theorem join_of_absolute (absolute : isRelative path = false) (base : Text) : join base path = path :=
  if_pos absolute

/-- A relative path stands behind the base, set off by one slash. -/
theorem join_of_relative (relative : isRelative path = true) (base : Text) :
    ∃ gap, join base path = base ++ gap ++ path ∧ (gap = [] ∨ gap = ['/']) ∧
      names (join base path) = names base ++ names path ∧
      isRelative (join base path) = isRelative base := by
  rw [join, if_neg (by simp [relative])]
  split
  · next set =>
    refine ⟨[], by simp, .inl rfl, ?_⟩
    rcases Bool.or_eq_true _ _ |>.mp set with empty | ended
    · rw [List.isEmpty_iff] at empty
      subst empty
      exact ⟨rfl, relative⟩
    · obtain ⟨front, rfl⟩ := List.getLast?_eq_some_iff.mp (of_decide_eq_true ended)
      refine ⟨?_, isRelative_append (by simp) path⟩
      rw [List.append_assoc, List.singleton_append, names_append_slash, names_append_slash]
      simp [names, components]
  · next apart =>
    have nonempty : base ≠ [] := by
      rintro rfl
      simp at apart
    exact ⟨['/'], by simp, .inr rfl, names_append_slash base path, isRelative_append nonempty _⟩

/-! ## Parents -/

theorem dropIdle_suffix (reversed : Text) : dropIdle reversed <:+ reversed := by
  fun_induction dropIdle reversed with
  | case1 rest ih => exact ih.trans (List.suffix_cons _ _)
  | case2 rest ih => exact ih.trans ((List.suffix_cons _ _).trans (List.suffix_cons _ _))
  | case3 => exact List.suffix_refl _

/-- Slashes and dots at the end are no names. -/
theorem names_dropIdle (reversed : Text) : names (dropIdle reversed).reverse = names reversed.reverse := by
  fun_induction dropIdle reversed with
  | case1 rest ih =>
    rw [ih, List.reverse_cons, names_append_slash]
    simp [names, components]
  | case2 rest ih =>
    rw [ih, List.reverse_cons, List.reverse_cons, List.append_assoc, List.singleton_append,
      names_append_slash]
    simp [names, components]
  | case3 => rfl

theorem dropIdle_dropIdle (reversed : Text) : dropIdle (dropIdle reversed) = dropIdle reversed := by
  fun_induction dropIdle reversed with
  | case1 rest ih => exact ih
  | case2 rest ih => exact ih
  | case3 reversed unslashed dotless => exact dropIdle.eq_3 reversed unslashed dotless

/-- What is left of a reversed path begins with its last name. -/
theorem settled_head {kept : Text} (settled : dropIdle kept = kept) (rest : Text) :
    kept ≠ '/' :: rest ∧ kept ≠ '.' :: '/' :: rest := by
  have shorter := (dropIdle_suffix rest).length_le
  constructor <;>
  · rintro rfl
    rw [dropIdle] at settled
    have length := congrArg List.length settled
    simp only [List.length_cons] at length
    omega

/-- Nothing is left only of a path that is empty or begins with a slash. -/
theorem head_of_dropIdle_eq_nil {reversed : Text} (gone : dropIdle reversed = []) :
    reversed = [] ∨ reversed.getLast? = some '/' := by
  fun_induction dropIdle reversed with
  | case1 rest ih =>
    rcases ih gone with rfl | last
    · exact .inr rfl
    · exact .inr (by simp [List.getLast?_cons, last])
  | case2 rest ih =>
    rcases ih gone with rfl | last
    · exact .inr rfl
    · exact .inr (by simp [List.getLast?_cons, last])
  | case3 => exact .inl gone

/-- What stands above the last name of a path has all the names but that one. -/
theorem names_above {kept : Text} (settled : dropIdle kept = kept) (nonempty : kept ≠ []) :
    names (dropIdle (kept.dropWhile (· ≠ '/'))).reverse = (names kept.reverse).dropLast ∧
      (names kept.reverse = [] → kept = ['.']) := by
  have whole := (List.takeWhile_append_dropWhile (p := fun c => decide (c ≠ '/')) (l := kept)).symm
  have plain : '/' ∉ (kept.takeWhile (· ≠ '/')).reverse := by
    intro member
    simpa using List.mem_takeWhile_imp (List.mem_reverse.mp member)
  generalize kept.takeWhile (· ≠ '/') = last at whole plain
  rcases tail : kept.dropWhile (· ≠ '/') with _ | ⟨c, more⟩
  · rw [tail, List.append_nil] at whole
    subst whole
    by_cases dot : kept = ['.']
    · subst dot
      exact ⟨rfl, fun _ => rfl⟩
    · have named : names kept.reverse = [kept.reverse] :=
        names_of_plain plain (by simpa using nonempty) (by simpa [List.reverse_eq_iff] using dot)
      rw [named]
      exact ⟨rfl, fun none => absurd none (List.cons_ne_nil _ _)⟩
  · have slash : c = '/' := by
      have first := List.head?_dropWhile_not (fun c => decide (c ≠ '/')) kept
      rw [tail] at first
      simpa using first
    subst slash
    rw [tail] at whole
    have named : last.reverse ≠ [] ∧ last.reverse ≠ ['.'] := by
      constructor
      · intro empty
        rw [List.reverse_eq_nil_iff.mp empty] at whole
        exact (settled_head settled more).1 whole
      · intro dot
        rw [List.reverse_eq_iff.mp dot] at whole
        exact (settled_head settled more).2 whole
    have parts : names kept.reverse = names more.reverse ++ [last.reverse] := by
      rw [whole, List.reverse_append, List.reverse_cons, List.append_assoc, List.singleton_append,
        names_append_slash, names_of_plain plain named.1 named.2]
    rw [parts]
    refine ⟨?_, fun none => absurd none (by simp)⟩
    rw [dropIdle, names_dropIdle, List.dropLast_concat]

/-- The parent of a path: the part of it that has all of its names but the last, without what
stands between the two. -/
theorem parent?_eq_some (found : parent? path = some above) :
    names above = (names path).dropLast ∧ isRelative above = isRelative path ∧
      above <+: path ∧ (Tidy above ∨ above = ['/']) := by
  have settled := dropIdle_dropIdle path.reverse
  have suffix := dropIdle_suffix path.reverse
  have same := names_dropIdle path.reverse
  rw [List.reverse_reverse] at same
  unfold parent? at found
  generalize dropIdle path.reverse = kept at found settled suffix same
  dsimp only at found
  split at found
  · cases found
  · next nonempty =>
    have nonempty : kept ≠ [] := by simpa using nonempty
    have names := (names_above settled nonempty).1
    have tidy := dropIdle_dropIdle (kept.dropWhile (· ≠ '/'))
    have above := (dropIdle_suffix (kept.dropWhile (· ≠ '/'))).trans ((List.dropWhile_suffix _).trans suffix)
    generalize dropIdle (kept.dropWhile (· ≠ '/')) = reversed at found names tidy above
    have starts : reversed.reverse <+: path := by simpa using List.reverse_prefix.mpr above
    rw [same] at names
    split at found
    · next rooted =>
      cases found
      obtain ⟨empty, absolute⟩ : reversed = [] ∧ isRelative path = false := by simpa using rooted
      subst empty
      obtain ⟨rest, rfl⟩ := exists_of_absolute absolute
      exact ⟨names, rfl, ⟨rest, rfl⟩, .inr rfl⟩
    · next unrooted =>
      cases found
      refine ⟨names, ?_, starts, .inl (by rwa [Tidy, List.reverse_reverse])⟩
      by_cases empty : reversed = []
      · subst empty
        exact (by simpa using unrooted : isRelative path = true).symm
      · obtain ⟨rest, rfl⟩ := starts
        exact (isRelative_append (by simpa using empty) rest).symm

/-- The empty path and the root have no parent, and every other path has one. -/
theorem parent?_eq_none_iff :
    parent? path = none ↔ names path = [] ∧ (path = [] ∨ isRelative path = false) := by
  have settled := dropIdle_dropIdle path.reverse
  have same := names_dropIdle path.reverse
  rw [List.reverse_reverse] at same
  have missing : parent? path = none ↔ dropIdle path.reverse = [] := by
    unfold parent?
    dsimp only
    split
    · next gone => simpa using gone
    · next left =>
      have left : dropIdle path.reverse ≠ [] := by simpa using left
      split <;> simp [left]
  rw [missing]
  constructor
  · intro gone
    rw [gone] at same
    refine ⟨same.symm, ?_⟩
    rcases head_of_dropIdle_eq_nil gone with empty | first
    · exact .inl (List.reverse_eq_nil_iff.mp empty)
    · rw [List.getLast?_reverse] at first
      obtain ⟨rest, rfl⟩ := List.head?_eq_some_iff.mp first
      exact .inr rfl
  · rintro ⟨none, start⟩
    by_contra left
    have dot := (names_above settled left).2 (same.trans none)
    have starts := List.reverse_prefix.mpr (dropIdle_suffix path.reverse)
    rw [dot, List.reverse_reverse] at starts
    obtain ⟨rest, rfl⟩ := starts
    rcases start with empty | absolute
    · cases empty
    · cases absolute

/-- A name at the end of a path stays when idle slashes and dots go. -/
theorem dropIdle_name (plain : '/' ∉ name) (apart : name ≠ []) (dotless : name ≠ ['.']) (rest : Text) :
    dropIdle (name.reverse ++ rest) = name.reverse ++ rest := by
  obtain ⟨c, more, reversed⟩ := List.exists_cons_of_ne_nil (mt List.reverse_eq_nil_iff.mp apart)
  have unslashed : '/' ∉ c :: more := reversed ▸ mt List.mem_reverse.mp plain
  have undotted : c :: more ≠ ['.'] := by
    rw [← reversed]
    exact mt List.reverse_eq_iff.mp dotless
  rw [reversed]
  refine dropIdle.eq_3 _ ?_ ?_
  · rintro after ⟨⟩
    exact unslashed (List.mem_cons_self)
  · intro after same
    cases more with
    | nil =>
      cases same
      exact undotted rfl
    | cons d more =>
      cases same
      exact unslashed (List.mem_cons_of_mem _ List.mem_cons_self)

/-- The parent of a name in a tidy directory is that directory. -/
theorem parent?_join (tidy : Tidy base) (plain : '/' ∉ name) (apart : name ≠ []) (dotless : name ≠ ['.']) :
    parent? (join base name) = some base := by
  have relative : isRelative name = true := by
    cases name with
    | nil => rfl
    | cons c name =>
      rw [List.mem_cons, not_or] at plain
      simp [isRelative, Ne.symm plain.1]
  have through (rest : Text) : (name.reverse ++ rest).dropWhile (· ≠ '/') = rest.dropWhile (· ≠ '/') := by
    refine List.dropWhile_append_of_pos fun c member => ?_
    have other : c ≠ '/' := fun slash => plain (slash ▸ List.mem_reverse.mp member)
    simpa using other
  simp only [ne_eq, decide_not] at through
  by_cases here : base = []
  · subst here
    have whole : join [] name = name := by simp [join, relative]
    have kept := dropIdle_name plain apart dotless []
    have last := through []
    rw [List.append_nil] at kept last
    simp [parent?, whole, kept, last, dropIdle, relative, apart]
  · have ended : base.getLast? ≠ some '/' := by
      intro slash
      obtain ⟨front, rfl⟩ := List.getLast?_eq_some_iff.mp slash
      rw [Tidy, List.reverse_append] at tidy
      exact (settled_head tidy _).1 rfl
    have whole : join base name = base ++ '/' :: name := by simp [join, relative, here, ended]
    have kept := dropIdle_name plain apart dotless ('/' :: base.reverse)
    have last := through ('/' :: base.reverse)
    have settled : dropIdle base.reverse = base.reverse := tidy
    simp [parent?, whole, kept, last, dropIdle, settled, apart, here]

end StackTemplate.Path
