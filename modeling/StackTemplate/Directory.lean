import StackTemplate.Path
import StackTemplate.Run

/-! A working directory as a value. Paths resolve the way an ordinary file
system resolves them, one component after the other. Of the world outside only
the parent directory, the root and `/proc/self/cwd` are known. -/
namespace StackTemplate

/-- A file with its bytes, or a folder with its entries. -/
inductive Node where
  | file (content : ByteArray)
  | folder (entries : List (Text × Node))
  deriving Inhabited

namespace Node

/-- The entry of that name. -/
def child? (name : Text) : Node → Option Node
  | file _ => none
  | folder entries => (entries.find? (·.1 = name)).map (·.2)

/-- The bytes of a file; a folder has none of its own. -/
def content? : Node → Option ByteArray
  | file content => some content
  | folder _ => none

/-- The node that a trail of names leads to. -/
def find? : List Text → Node → Option Node
  | [], node => some node
  | name :: trail, node => (node.child? name).bind (find? trail)

/-- A folder's entries with one replaced, or added at the end. -/
def put (name : Text) (node : Node) : List (Text × Node) → List (Text × Node)
  | [] => [(name, node)]
  | (existing, old) :: entries =>
    if existing = name then (name, node) :: entries else (existing, old) :: put name node entries

/-- The tree with a node set at the end of a trail; folders on the way are made
where nothing is. A file on the way stays as it is. -/
def set : (tree : Node) → (trail : List Text) → (new : Node) → Node
  | _, [], new => new
  | folder entries, name :: trail, new =>
    let old := ((folder entries).child? name).getD (folder [])
    folder (put name (old.set trail new) entries)
  | file content, _ :: _, _ => file content

/-- The tree without the node at the end of a trail. -/
def erase : List Text → Node → Node
  | [name], folder entries => folder (entries.filter (·.1 ≠ name))
  | name :: trail, folder entries =>
    match (folder entries).child? name with
    | some inner => folder (put name (erase trail inner) entries)
    | none => folder entries
  | _, node => node

end Node

/-- A place that a path can lead to. -/
inductive Spot where
  | root
  | proc
  | self
  /-- The end of a trail of names from the parent directory, the last name first. -/
  | under (trail : List Text)
  deriving DecidableEq, Repr

/-- The working directory and what stands beside it in its parent. The tree
starts at the parent, where the working directory goes by a name no path can have. -/
structure Directory where
  tree : Node

namespace Directory

/-- The name of the working directory in its parent. -/
def ownName : Text := ['/']

/-- An empty working directory. -/
def empty : Directory :=
  ⟨.folder [(ownName, .folder [])]⟩

/-- Where relative paths start. -/
def start : Spot := .under [ownName]

/-- The file or folder at a spot, for spots that are in the tree. -/
def node? (directory : Directory) : Spot → Option Node
  | .under trail => directory.tree.find? trail.reverse
  | _ => some (.folder [])

/-- Whether a path can go on from a spot. -/
def isFolder (directory : Directory) (spot : Spot) : Bool :=
  match directory.node? spot with
  | some (.folder _) => true
  | _ => false

/-- What stands at a spot: nothing, a folder, or a file with its bytes. -/
def look (directory : Directory) (spot : Spot) : Option (Option ByteArray) :=
  (directory.node? spot).map Node.content?

/-- The longest name a file can have, in bytes. -/
def maxName : Nat := 255

/-- The length from which a path is refused, in bytes. -/
def maxPath : Nat := 4096

/-- The folder above a spot. -/
def above : Spot → Spot
  | .root => .root
  | .proc => .root
  | .self => .proc
  | .under [] => .root
  | .under (_ :: trail) => .under trail

/-- The spot that a name leads to. -/
def child (spot : Spot) (name : Text) : Option Spot :=
  match spot with
  | .root => if name = "proc".toList then some .proc else none
  | .proc => if name = "self".toList then some .self else none
  | .self => if name = "cwd".toList then some start else none
  | .under trail => some (.under (name :: trail))

/-- Goes one component further. -/
def step (directory : Directory) (spot : Spot) (name : Text) : Except Fault Spot :=
  if directory.isFolder spot = false then .error .notDirectory
  else if name = ['.'] then .ok spot
  else if name = ['.', '.'] then .ok (above spot)
  else if Text.byteLength name > maxName then .error .nameTooLong
  else match child spot name with
    | some next => if (directory.node? next).isSome then .ok next else .error .notFound
    | none => .error .notFound

/-- Goes along several components. -/
def walk (directory : Directory) : Spot → List Text → Except Fault Spot
  | spot, [] => .ok spot
  | spot, name :: names =>
    match directory.step spot name with
    | .ok next => walk directory next names
    | .error fault => .error fault

/-- The names on a path. -/
def names (path : Text) : List Text :=
  (Path.components path).filter (· ≠ [])

/-- Where a path starts. -/
def origin (path : Text) : Spot :=
  if Path.isRelative path then start else .root

/-- What is wrong with a path before any component is looked at. -/
def refusal? (path : Text) : Option Fault :=
  if path.contains '\x00' then some .nulInPath
  else if path.isEmpty then some .notFound
  else if Text.byteLength path ≥ maxPath then some .nameTooLong
  else none

/-- The spot that a path leads to. A slash at the end asks for a folder. -/
def resolve (directory : Directory) (path : Text) : Except Fault Spot :=
  match refusal? path with
  | some fault => .error fault
  | none =>
    match directory.walk (origin path) (names path) with
    | .error fault => .error fault
    | .ok spot =>
      if path.getLast? = some '/' ∧ directory.isFolder spot = false then .error .notDirectory
      else .ok spot

/-- What a file with these bytes reads as. -/
def decode (content : ByteArray) : Except Fault Text :=
  match Text.decode? content with
  | some text => .ok text
  | none => .error .notUtf8

/-- The bytes of a file that holds a text. -/
abbrev encode (text : Text) : ByteArray :=
  Text.encode text

/-- Reads a file as text. -/
def read (directory : Directory) : Files := fun path =>
  match directory.resolve path with
  | .error fault => .error fault
  | .ok spot =>
    match directory.node? spot with
    | some (.file content) => decode content
    | some (.folder _) => .error .isDirectory
    | none => .error .notFound

/-- Whether a path leads to a file. -/
def isFile (directory : Directory) (path : Text) : Bool :=
  match directory.resolve path with
  | .error _ => false
  | .ok spot =>
    match directory.node? spot with
    | some (.file _) => true
    | _ => false

/-- Sets what is at a spot of the tree. -/
def setNode (directory : Directory) (spot : Spot) (node : Node) : Directory :=
  match spot with
  | .under trail => ⟨directory.tree.set trail.reverse node⟩
  | _ => directory

/-- Why a file cannot be made outside the tree. -/
def denied : Fault := .other "Permission denied (os error 13)".toList

/-- The spot that writing a path would fill. A path that can only name a folder
is refused, and nothing can be made outside the tree. -/
def target (directory : Directory) (path : Text) : Except Fault Spot :=
  match refusal? path with
  | some fault => .error fault
  | none =>
    match (names path).getLast? with
    | none => .error .isDirectory
    | some name =>
      match directory.walk (origin path) (names path).dropLast with
      | .error fault => .error fault
      | .ok parent =>
        if directory.isFolder parent = false then .error .notDirectory
        else if path.getLast? = some '/' ∨ name = ['.'] ∨ name = ['.', '.'] then .error .isDirectory
        else if Text.byteLength name > maxName then .error .nameTooLong
        else match parent with
          | .under trail =>
            if directory.isFolder (.under (name :: trail)) then .error .isDirectory
            else .ok (.under (name :: trail))
          | outside => .error (if (child outside name).isSome then .isDirectory else denied)

/-- Writes bytes to a file, in the place of what it held. -/
def write (directory : Directory) (path : Text) (content : ByteArray) : Except Fault Directory :=
  (directory.target path).map fun spot => directory.setNode spot (.file content)

/-- Goes one component further, making a folder where nothing is. -/
def enter (directory : Directory) (spot : Spot) (name : Text) : Directory × Spot :=
  if name = ['.'] then (directory, spot)
  else if name = ['.', '.'] then (directory, above spot)
  else
    match child spot name with
    | none => (directory, spot)
    | some next =>
      if (directory.node? next).isSome then (directory, next)
      else (directory.setNode next (.folder []), next)

/-- Goes along several components, making folders where nothing is. -/
def enterAll (directory : Directory) (spot : Spot) (names : List Text) : Directory × Spot :=
  names.foldl (fun (directory, spot) name => directory.enter spot name) (directory, spot)

/-- Makes a folder with all the folders on its path, or keeps it. -/
def makeFolder (directory : Directory) (path : Text) : Directory :=
  (directory.enterAll (origin path) (names path)).1

/-- Puts a file in place with all the folders on its path. -/
def makeFile (directory : Directory) (path : Text) (content : ByteArray) : Directory :=
  let (directory, parent) := directory.enterAll (origin path) (names path).dropLast
  match (names path).getLast?.bind (child parent) with
  | some spot => directory.setNode spot (.file content)
  | none => directory

/-- Removes a file; none if there is no such file. -/
def remove? (directory : Directory) (path : Text) : Option Directory :=
  match directory.resolve path with
  | .ok (.under trail) =>
    match directory.node? (.under trail) with
    | some (.file _) => some ⟨directory.tree.erase trail.reverse⟩
    | _ => none
  | _ => none

end Directory

end StackTemplate
