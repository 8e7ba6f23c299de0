import StackTemplate.CommandLine

/-! A session: a working directory and the options in force. Commands that
follow each other see what earlier ones wrote and configured. -/
namespace StackTemplate

/-- What lasts from one command to the next. -/
structure Session where
  directory : Directory := .empty
  options : Document.Options := {}

namespace Session

/-- The formats of documents and configurations in a session. -/
def formats : CommandLine.Formats := .standard

/-- The session with the options that were loaded; a failure leaves it as it was. -/
def adopt (session : Session) (loaded : Run Document.Options) : Session :=
  match loaded.result with
  | .ok options => { session with options }
  | .error _ => session

/-- The fragment that a text denotes under the session's options. -/
def interpolate (session : Session) (text : Text) : Run Fragment :=
  StackTemplate.interpolate session.directory.read session.options.interpolation text

/-- Several rounds of interpolation under the session's options. -/
def rounds (session : Session) (count : Nat) (text : Text) : List (Run Fragment) :=
  interpolateRounds session.directory.read session.options.interpolation count text

/-- Processes the text of a document. -/
def processSource (session : Session) (text : Text) : Run Json.Value :=
  Document.processSource formats.readDocument session.directory.read session.options text

/-- Processes a document that has been read. -/
def processValue (session : Session) (value : Json.Value) : Run Json.Value :=
  Document.process session.directory.read session.options .plain value

/-- Reads a document and processes it. -/
def processFile (session : Session) (path : Text) : Run Json.Value :=
  Document.processFile formats.readDocument session.directory.read session.options path

/-- Loads a configuration file. -/
def loadConfig (session : Session) (path : Text) : Run Document.Options :=
  Config.load formats.readConfig session.directory.read path

/-- Loads the named configuration, the local one, or the defaults. -/
def loadConfigOrDefault (session : Session) (path : Option Text) : Run Document.Options :=
  Config.loadOrDefault formats.readConfig session.directory.read session.directory.isFile path

/-- What a finished command leaves behind for its user. -/
structure Report where
  exit : Nat
  stdout : Text
  stderr : Text
  deriving DecidableEq, Repr

/-- Runs a command line in the session's directory, with streams that take everything. -/
def command (session : Session) (arguments : List Text) (environment : Option Text) :
    Report × Session :=
  let host := Directory.fileSystem.host .open .open
  let (exit, world) := runFrom session.directory
    (CommandLine.run host formats CommandLine.readInvocation arguments environment)
  ({ exit
     stdout := (Text.decode? world.stdout).getD []
     stderr := (Text.decode? world.stderr).getD [] },
   { session with directory := world.files })

end Session

end StackTemplate
