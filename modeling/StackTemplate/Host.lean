import StackTemplate.Directory

/-! What a command runs on. A `Host` is what a command can ask for; a
`FileSystem` with two sinks answers it, and a `Directory` is a file system. -/
namespace StackTemplate

/-- The system around a command: files to read and to write, and two streams
for output. -/
structure Host (m : Type → Type) where
  isFile : Text → m Bool
  read : Text → m (Except Fault Text)
  /-- Computes from the files as they are. -/
  compute : {α : Type} → (Files → Run α) → m (Run α)
  write : Text → ByteArray → m (Except Fault Unit)
  /-- Sends bytes to the standard output. -/
  print : ByteArray → m (Except Fault Unit)
  /-- Sends bytes to the standard error. -/
  warn : ByteArray → m (Except Fault Unit)

/-- A file system. Paths lead to places; a place has nothing, a folder, or a file
with its bytes. A write that is refused leaves everything as it was. -/
structure FileSystem (State Place : Type) where
  resolve : State → Text → Except Fault Place
  look : State → Place → Option (Option ByteArray)
  isFile : State → Text → Bool
  read : State → Files
  write : State → Text → ByteArray → Except Fault State

/-- A write that goes through fills the one place that its path then leads to, with
the bytes it was given, and changes no other. -/
structure FileSystem.Lawful (system : FileSystem State Place) : Prop where
  write_seen : ∀ {before after path bytes}, system.write before path bytes = .ok after →
    ∃ place, system.resolve after path = .ok place ∧
      system.look after place = some (some bytes) ∧
      ∀ other, other ≠ place → system.look after other = system.look before other

/-- Where output goes: how many of the bytes sent after others are taken before
the rest is refused, or none if all are taken. -/
abbrev Sink := (taken sent : ByteArray) → Option (Nat × Fault)

/-- The sink takes whatever is sent. -/
def Sink.TakesAll (sink : Sink) : Prop :=
  ∀ taken sent, sink taken sent = none

/-- What the sink does not take as a whole leaves no byte in it. -/
def Sink.Whole (sink : Sink) : Prop :=
  ∀ taken sent count fault, sink taken sent = some (count, fault) → count = 0

/-- A sink that takes whatever is sent. -/
def Sink.open : Sink := fun _ _ => none

/-- Whether all that was sent could be taken, and what a sink has taken then. -/
def Sink.send (sink : Sink) (taken sent : ByteArray) : Except Fault Unit × ByteArray :=
  match sink taken sent with
  | none => (.ok (), taken ++ sent)
  | some (count, fault) => (.error fault, taken ++ sent.extract 0 count)

/-- The files as they are, and what the two sinks have taken. -/
structure World (State : Type) where
  files : State
  stdout : ByteArray := .empty
  stderr : ByteArray := .empty

/-- Carries out what runs on such a host, from files as they are and with nothing sent yet. -/
def runFrom (files : State) (action : StateM (World State) α) : α × World State :=
  Id.run (action.run { files })

/-- The host that a file system and two sinks make up. -/
def FileSystem.host (system : FileSystem State Place) (out err : Sink) : Host (StateM (World State)) where
  isFile path := return system.isFile (← get).files path
  read path := return system.read (← get).files path
  compute work := return work (system.read (← get).files)
  write path bytes := modifyGet fun world =>
    match system.write world.files path bytes with
    | .ok files => (.ok (), { world with files })
    | .error fault => (.error fault, world)
  print bytes := modifyGet fun world =>
    let (answer, stdout) := out.send world.stdout bytes
    (answer, { world with stdout })
  warn bytes := modifyGet fun world =>
    let (answer, stderr) := err.send world.stderr bytes
    (answer, { world with stderr })

/-- A directory as a file system. -/
def Directory.fileSystem : FileSystem Directory Spot where
  resolve := Directory.resolve
  look := Directory.look
  isFile := Directory.isFile
  read := Directory.read
  write := Directory.write

end StackTemplate
