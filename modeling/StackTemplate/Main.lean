import StackTemplate.CommandLine

/-! The program. Its host is the system it runs on. -/
namespace StackTemplate.Main

/-- What the system's refusal means. -/
def faultOf : IO.Error → Fault
  | .noFileOrDirectory _ _ _ => .notFound
  | .inappropriateType _ code details => byCode code details
  | .invalidArgument _ code details => byCode code details
  | .resourceExhausted _ code details => byCode code details
  | .otherError code details => byCode code details
  | .permissionDenied _ code details => byCode code details
  | error => .other (toString error).toList
where
  /-- The fault with a code of its own, or the system's words for it. Some calls
  give the code negated. -/
  byCode (code : UInt32) (details : String) : Fault :=
    let code := if code > 0x7FFFFFFF then 0 - code else code
    if code = 2 then .notFound
    else if code = 20 then .notDirectory
    else if code = 21 then .isDirectory
    else if code = 36 then .nameTooLong
    else .other (details ++ " (os error " ++ toString code ++ ")").toList

/-- What the system answers to an action. -/
def attempt (action : IO α) : IO (Except Fault α) := do
  try
    return .ok (← action)
  catch error => return .error (faultOf error)

/-- Reads a file as text. -/
def readText (path : Text) : IO (Except Fault Text) := do
  match Directory.refusal? path with
  | some fault => return .error fault
  | none => return (← attempt (IO.FS.readBinFile (String.ofList path))).bind Directory.decode

/-- The files that have been read so far; any other is taken to be missing. -/
def known (read : List (Text × Except Fault Text)) : Files := fun path =>
  match read.find? (·.1 = path) with
  | some (_, answer) => answer
  | none => .error .notFound

/-- Computes from the files as they are. The computation is made again with each file
that it asks for, until it asks for none that is not known. -/
partial def compute (work : Files → Run α) (read : List (Text × Except Fault Text)) : IO (Run α) := do
  let run := work (known read)
  match (run.inclusions.map (·.path)).find? fun path => !read.any (·.1 = path) with
  | none => return run
  | some path => compute work ((path, ← readText path) :: read)

/-- Sends bytes to a stream. -/
def send (stream : IO.FS.Stream) (bytes : ByteArray) : IO (Except Fault Unit) :=
  attempt do
    stream.write bytes
    stream.flush

/-- The system that the program runs on. A file is one that can be read, or cannot for
a reason that no other thing gives. -/
def host : Host IO where
  isFile path := do
    match ← readText path with
    | .ok _ => return true
    | .error .notUtf8 => return true
    | .error (.other _) => return true
    | .error _ => return false
  read := readText
  compute work := compute work []
  write path bytes := do
    match Directory.refusal? path with
    | some fault => return .error fault
    | none => attempt (IO.FS.writeBinFile (String.ofList path) bytes)
  print bytes := do send (← IO.getStdout) bytes
  warn bytes := do send (← IO.getStderr) bytes

end StackTemplate.Main

open StackTemplate in
/-- Interpolates a text or processes a document, as the arguments say. -/
def main (arguments : List String) : IO UInt32 := do
  let environment ← IO.getEnv "AUTOSTACKER_CONFIG"
  let exit ← CommandLine.run Main.host .standard CommandLine.readInvocation
    (arguments.map String.toList) (environment.map String.toList)
  return exit.toUInt32
