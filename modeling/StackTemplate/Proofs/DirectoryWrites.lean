import Mathlib
import StackTemplate.Host

/-! What writing a file changes. A file or folder is seen by the spot it is at; a write that
goes through fills one spot with the new bytes and leaves every other as it was, and the path
that was written leads there. -/
namespace StackTemplate

namespace Node

theorem child?_put (name other : Text) (node : Node) (entries : List (Text × Node)) :
    (folder (put name node entries)).child? other =
      if other = name then some node else (folder entries).child? other := by
  induction entries with
  | nil => by_cases same : name = other <;> simp [put, child?, same, eq_comm]
  | cons entry entries ih =>
    obtain ⟨existing, old⟩ := entry
    simp only [child?] at ih
    by_cases here : existing = name
    · by_cases same : other = name
      · simp [put, child?, here, same]
      · have apart : name ≠ other := Ne.symm same
        simp [put, child?, here, same, apart]
    · by_cases first : existing = other
      · have apart : other ≠ name := first ▸ here
        simp [put, child?, first, apart]
      · simpa [put, child?, here, first] using ih

/-- Setting a file in a folder, where no folder is in its way, changes what is seen at its
own trail and nowhere else. -/
theorem seen_set {trail : List Text} {tree : Node} {entries : List (Text × Node)} (name : Text)
    (inFolder : tree.find? trail = some (folder entries))
    (free : ∀ inner, tree.find? (trail ++ [name]) ≠ some (folder inner)) (content : ByteArray)
    (other : List Text) :
    ((tree.set (trail ++ [name]) (file content)).find? other).map content? =
      if other = trail ++ [name] then some (some content) else (tree.find? other).map content? := by
  induction trail generalizing tree other with
  | nil =>
    obtain rfl : tree = folder entries := Option.some.inj inFolder
    cases other with
    | nil => simp [find?, set, content?]
    | cons first rest =>
      simp only [List.nil_append, set, find?, child?_put]
      by_cases same : first = name
      · subst same
        cases rest with
        | nil => simp [find?, content?]
        | cons second rest =>
          have nothingBelow : ((folder entries).child? first).bind (find? (second :: rest)) = none := by
            cases held : (folder entries).child? first with
            | none => rfl
            | some node =>
              cases node with
              | file old => rfl
              | folder inner => exact absurd (by simp [find?, held]) (free inner)
          simp only [↓reduceIte, Option.bind_some, nothingBelow]
          simp [find?, child?]
      · simp [same]
  | cons step trail ih =>
    cases tree with
    | file old => cases inFolder
    | folder own =>
      obtain ⟨inner, here, deeper⟩ := Option.bind_eq_some_iff.mp inFolder
      have free' : ∀ entries, inner.find? (trail ++ [name]) ≠ some (folder entries) := by
        intro entries found
        exact free entries (by simp [find?, here, found])
      cases other with
      | nil => simp [find?, set, content?]
      | cons first rest =>
        simp only [List.cons_append, set, find?, child?_put, here, Option.getD_some]
        by_cases same : first = step
        · subst same
          simpa [here] using ih deeper free' rest
        · simp [same]

end Node

namespace Directory

theorem isFolder_eq_look (directory : Directory) (spot : Spot) :
    directory.isFolder spot = (directory.look spot == some none) := by
  unfold isFolder look
  cases directory.node? spot with
  | none => rfl
  | some node =>
    cases node with
    | file content => rfl
    | folder entries => rfl

theorem isSome_node?_eq_look (directory : Directory) (spot : Spot) :
    (directory.node? spot).isSome = (directory.look spot).isSome := by
  rw [look, Option.isSome_map]

/-- How a path leads to a folder of the tree, in which writing it would fill a name. -/
structure Aims (directory : Directory) (path : Text) (trail : List Text) (name : Text) : Prop where
  allowed : refusal? path = none
  last : (names path).getLast? = some name
  above : directory.walk (origin path) (names path).dropLast = .ok (.under trail)
  inFolder : directory.isFolder (.under trail) = true
  named : ¬(path.getLast? = some '/' ∨ name = ['.'] ∨ name = ['.', '.'])
  short : Text.byteLength name ≤ maxName
  free : directory.isFolder (.under (name :: trail)) = false

theorem exists_aims {directory : Directory} {path : Text} {spot : Spot}
    (aims : directory.target path = .ok spot) :
    ∃ trail name, Aims directory path trail name ∧ spot = .under (name :: trail) := by
  unfold target at aims
  split at aims
  · cases aims
  · next allowed =>
    split at aims
    · cases aims
    · next name last =>
      split at aims
      · cases aims
      · next parent above =>
        split at aims
        · cases aims
        · next inFolder =>
          split at aims
          · cases aims
          · next ends =>
            split at aims
            · cases aims
            · next short =>
              split at aims
              · next trail =>
                split at aims
                · cases aims
                · next free =>
                  cases aims
                  exact ⟨trail, name, ⟨allowed, last, above, by simpa using inFolder, ends,
                    Nat.le_of_not_lt short, by simpa using free⟩, rfl⟩
              · cases aims

/-- Filling a spot in a folder changes what is seen there and nowhere else. -/
theorem look_setNode {directory : Directory} {trail : List Text} {name : Text}
    (inFolder : directory.isFolder (.under trail) = true)
    (free : directory.isFolder (.under (name :: trail)) = false) (content : ByteArray) (spot : Spot) :
    (directory.setNode (.under (name :: trail)) (.file content)).look spot =
      if spot = .under (name :: trail) then some (some content) else directory.look spot := by
  obtain ⟨entries, found⟩ : ∃ entries, directory.tree.find? trail.reverse = some (.folder entries) := by
    simp only [isFolder, node?] at inFolder
    split at inFolder
    · next entries found => exact ⟨entries, found⟩
    · cases inFolder
  have unoccupied (inner : List (Text × Node)) :
      directory.tree.find? (trail.reverse ++ [name]) ≠ some (.folder inner) := by
    intro occupied
    simp [isFolder, node?, occupied] at free
  cases spot with
  | root => rfl
  | proc => rfl
  | self => rfl
  | under other =>
    have seen := Node.seen_set name found unoccupied content other.reverse
    have same : other.reverse = trail.reverse ++ [name] ↔ Spot.under other = .under (name :: trail) := by
      rw [← List.reverse_cons, List.reverse_inj, Spot.under.injEq]
    simp only [same] at seen
    simpa only [look, setNode, node?, List.reverse_cons] using seen

/-- A directory in which everything is still there that was in another. -/
def Keeps (directory after : Directory) : Prop :=
  ∀ spot, (directory.isFolder spot = true → after.isFolder spot = true) ∧
    ((directory.node? spot).isSome → (after.node? spot).isSome)

theorem Keeps.step {directory after : Directory} (keeps : Keeps directory after) {spot next : Spot}
    {name : Text} (steps : directory.step spot name = .ok next) : after.step spot name = .ok next := by
  unfold Directory.step at steps ⊢
  split at steps
  · cases steps
  · next inFolder =>
    rw [if_neg (by simpa using (keeps spot).1 (by simpa using inFolder))]
    split at steps
    · next here => rw [if_pos here, steps]
    · next away =>
      rw [if_neg away]
      split at steps
      · next up => rw [if_pos up, steps]
      · next down =>
        rw [if_neg down]
        split at steps
        · cases steps
        · next short =>
          rw [if_neg short]
          split at steps
          · next found leads =>
            split at steps
            · next there =>
              cases steps
              exact if_pos ((keeps next).2 there)
            · cases steps
          · cases steps

theorem Keeps.walk {directory after : Directory} (keeps : Keeps directory after) {spot final : Spot}
    {trail : List Text} (walks : directory.walk spot trail = .ok final) :
    after.walk spot trail = .ok final := by
  induction trail generalizing spot with
  | nil => exact walks
  | cons name trail ih =>
    unfold Directory.walk at walks ⊢
    split at walks
    · next next steps =>
      rw [keeps.step steps]
      exact ih walks
    · cases walks

theorem walk_snoc {directory : Directory} {spot parent : Spot} {trail : List Text}
    (walks : directory.walk spot trail = .ok parent) (name : Text) :
    directory.walk spot (trail ++ [name]) = directory.step parent name := by
  induction trail generalizing spot with
  | nil =>
    cases walks
    simp only [List.nil_append, walk]
    split
    · next ended => exact ended.symm
    · next failed => exact failed.symm
  | cons first trail ih =>
    rw [List.cons_append]
    unfold walk at walks ⊢
    split at walks
    · exact ih walks
    · cases walks

/-- A path that was written leads to what was written. -/
theorem Aims.resolve {directory after : Directory} {path name : Text} {trail : List Text}
    (aims : Aims directory path trail name) (keeps : Keeps directory after)
    (there : (after.node? (.under (name :: trail))).isSome) :
    after.resolve path = .ok (.under (name :: trail)) := by
  have parts : names path = (names path).dropLast ++ [name] :=
    (List.dropLast_append_getLast? name aims.last).symm
  obtain ⟨unslashed, dotless, upless⟩ : path.getLast? ≠ some '/' ∧ name ≠ ['.'] ∧ name ≠ ['.', '.'] := by
    simpa only [not_or] using aims.named
  have steps : after.step (.under trail) name = .ok (.under (name :: trail)) := by
    have inFolder := (keeps (.under trail)).1 aims.inFolder
    have short : ¬Text.byteLength name > maxName := Nat.not_lt.mpr aims.short
    simp [step, inFolder, dotless, upless, short, child, there]
  have walks : after.walk (origin path) (names path) = .ok (.under (name :: trail)) := by
    rw [parts, walk_snoc (keeps.walk aims.above), steps]
  simp [Directory.resolve, aims.allowed, walks, unslashed]

/-- Filling a spot where no folder stands keeps everything in the directory. -/
theorem Keeps.setNode {directory : Directory} {trail : List Text} {name : Text}
    (inFolder : directory.isFolder (.under trail) = true)
    (free : directory.isFolder (.under (name :: trail)) = false) (content : ByteArray) :
    Keeps directory (directory.setNode (.under (name :: trail)) (.file content)) := by
  intro spot
  simp only [isFolder_eq_look, isSome_node?_eq_look, look_setNode inFolder free]
  by_cases same : spot = .under (name :: trail)
  · subst same
    rw [isFolder_eq_look] at free
    simp [free]
  · simp [same]

/-- A directory is a file system in which a write that goes through fills the spot that its
path leads to, and no other. -/
theorem fileSystem_lawful : fileSystem.Lawful where
  write_seen {before after path bytes} wrote := by
    change (before.target path).map _ = _ at wrote
    cases aimed : before.target path with
    | error fault =>
      rw [aimed] at wrote
      cases wrote
    | ok spot =>
      obtain ⟨trail, name, aims, rfl⟩ := exists_aims aimed
      rw [aimed] at wrote
      obtain rfl := Except.ok.inj wrote
      have seen := look_setNode aims.inFolder aims.free bytes
      have here := seen (.under (name :: trail))
      rw [if_pos rfl] at here
      refine ⟨_, aims.resolve (Keeps.setNode aims.inFolder aims.free bytes) ?_, here, fun other apart => ?_⟩
      · rw [isSome_node?_eq_look, here]
        rfl
      · exact (seen other).trans (if_neg apart)

end Directory

end StackTemplate
