import StackTemplate.CommandLine.Arguments
import StackTemplate.Config
import StackTemplate.Host
import StackTemplate.Json.Reader

/-! The command line. A command takes one step after the other on its host: it
loads the configuration, reads and computes, and only then writes or prints. The
first step that fails is the last one. -/
namespace StackTemplate.CommandLine

/-- What to do. -/
inductive Command where
  /-- Interpolate one text and print what it denotes, as functions or as a tree. -/
  | interpolate (text : Text) (outline : Bool) (baseDir : Option Text)
  /-- Process a document and print it, or write it to a file. -/
  | preprocess (file : Text) (output : Option Text) (compact : Bool)
  deriving DecidableEq, Repr

/-- A command and the settings that hold for every command. -/
structure Invocation where
  command : Command
  verbose : Bool := false
  config : Option Text := none
  deriving DecidableEq, Repr

/-! ## From arguments to an invocation -/

/-- The names of options and subcommands. -/
def verbose : Text := "verbose".toList
def config : Text := "config".toList
def ast : Text := "ast".toList
def baseDir : Text := "base-dir".toList
def output : Text := "output".toList
def compact : Text := "compact".toList
def interpolateName : Text := "interpolate".toList
def preprocessName : Text := "preprocess".toList
def helpName : Text := "help".toList

/-- The option that asks for the version; no subcommand has it. -/
def versionSwitch : Switch :=
  { name := "version".toList, short := some 'V', role := .stop .version }

/-- The option that asks for help, on the program or on a subcommand. -/
def helpSwitch (subcommand : Option Text) : Switch :=
  { name := helpName, short := some 'h', role := .stop (.help subcommand) }

/-- The options that may stand before or after the subcommand. -/
def globalSwitches : List Switch :=
  [{ name := verbose, short := some 'v' }, { name := config, role := .path }]

/-- The options of `interpolate`. -/
def interpolateSwitches : List Switch :=
  [{ name := ast }, { name := baseDir, role := .path }]

/-- The options of `preprocess`. -/
def preprocessSwitches : List Switch :=
  [{ name := output, short := some 'o', role := .path }, { name := compact }]

/-- The command that a subcommand and its arguments name. The file to process
is a path, so it is not empty; the text to interpolate may be. -/
def readCommand (name : Text) (arguments : Arguments) : Except Stop Command :=
  match arguments.positionals with
  | [positional] =>
    if name = interpolateName then
      .ok (.interpolate positional (arguments.has ast) (arguments.value? baseDir))
    else if positional.isEmpty then .error .misuse
    else .ok (.preprocess positional (arguments.value? output) (arguments.has compact))
  | _ => .error .misuse

/-- The configuration in force. The one named last wins, and the environment's
comes after both; it is looked at wherever none is named. -/
def chooseConfig (outer inner environment : Option Text) : Except Stop (Option Text) :=
  if environment = some [] && (outer.isNone || inner.isNone) then .error .misuse
  else .ok (inner.or (outer.or environment))

/-- What `help` is asked for: the program, or the one subcommand named after it. -/
def readHelp : List Text → Stop
  | [] => .help none
  | [name] =>
    if name = helpName then .help none
    else if name = interpolateName ∨ name = preprocessName then .help (some name)
    else .misuse
  | _ => .misuse

/-- How arguments and the environment are read: the invocation that they ask for. -/
abbrev Reader := (arguments : List Text) → (environment : Option Text) → Except Stop Invocation

/-- Reads the arguments of the program. -/
def readInvocation : Reader := fun arguments environment => do
  let outer ← Arguments.read (versionSwitch :: helpSwitch none :: globalSwitches)
    [interpolateName, preprocessName, helpName] arguments
  match outer.subcommand with
  | none => .error .misuse
  | some (name, rest) =>
    if name = helpName then .error (readHelp rest)
    else
      let own := if name = interpolateName then interpolateSwitches else preprocessSwitches
      let inner ← Arguments.read (own ++ helpSwitch (some name) :: globalSwitches) [] rest
      let command ← readCommand name inner
      let config ← chooseConfig (outer.value? config) (inner.value? config) environment
      return { command, verbose := outer.has verbose || inner.has verbose, config }

/-! ## Steps of a command -/

/-- The formats that commands read and write. -/
structure Formats where
  readDocument : Document.Reader
  readConfig : Config.Reader
  /-- A value as JSON, on one line or laid out over several, or what stands against it. -/
  print : (compact : Bool) → Json.Value → Except Text Text

/-- JSON documents and TOML configurations. -/
def Formats.standard : Formats where
  readDocument := Json.parse Json.documentDepth
  readConfig := Config.read
  print compact value := .ok (if compact then Json.printCompact value else Json.printPretty value)

/-- Why a command stops before its end. -/
inductive Halt where
  /-- It failed, and this is to be told. -/
  | failed (complaint : Text)
  /-- It was about to tell the user something that the stream did not take. -/
  | speechless
  deriving DecidableEq, Repr

/-- The chain of messages behind a failure, ending with the cause of the error. -/
def chain (context : Text) (error : Error) : Text :=
  context ++ ':' :: ' ' :: error.message ++
    match error.cause? with
    | some fault => ':' :: ' ' :: fault.message
    | none => []

/-- A failure in its context. A malformed file is told by its code; the line stays
open for a diagnosis. -/
def failure (context : Text) (error : Error) : Halt :=
  .failed (chain context error ++ if error.line?.isSome then [] else ['\n'])

/-- What a failure to load the configuration is called. -/
def configContext : Option Text → Text
  | some path => "Failed to load config ".toList ++ path
  | none => "Failed to load ".toList ++ Config.localPath

/-- The interpolation options of a command, in which its own base directory wins. -/
def withBase (options : Interpolation.Options) (base : Option Text) : Interpolation.Options :=
  { options with baseDir := base.or options.baseDir }

/-- A command in progress: it goes on, or it halts. -/
abbrev Action (m : Type → Type) := ExceptT Halt m

/-- The exit code after a failure, which could be told or not. -/
def failureCode : Except Fault Unit → Nat
  | .ok () => 1
  | .error _ => 101

section
variable {m : Type → Type} [Monad m] (host : Host m) (formats : Formats)

/-- Goes on with what was computed, or halts with the failure in its context. -/
def proceed (context : Text) (run : Run α) : Action m α :=
  match run.result with
  | .ok value => return value
  | .error error => throw (failure context error)

/-- Tells what is going on, to those who want to know. -/
def notify (verbose : Bool) (text : Text) : Action m Unit := do
  if verbose then
    match ← host.warn (Text.encode ("→ ".toList ++ text ++ ['\n'])) with
    | .ok () => return ()
    | .error _ => throw .speechless

/-- Loads a configuration file. It is the one that was named, or the local one. -/
def loadFrom (named : Option Text) (path : Text) : Action m Document.Options := do
  proceed (configContext named) (Config.loadContent formats.readConfig path (← host.read path))

/-- Loads the configuration: the one named, or else the local one if there is one. -/
def loadOptions (named : Option Text) : Action m Document.Options := do
  match named with
  | some path => loadFrom host formats named path
  | none =>
    if ← host.isFile Config.localPath then loadFrom host formats named Config.localPath
    else return {}

/-- The text of a value, on a line or lines of its own. -/
def render (compact : Bool) (value : Json.Value) : Action m ByteArray :=
  match formats.print compact value with
  | .ok text => return Text.encode (text ++ ['\n'])
  | .error complaint => throw (.failed (complaint ++ ['\n']))

/-- Prints a result. -/
def printResult (bytes : ByteArray) : Action m Unit := do
  match ← host.print bytes with
  | .ok () => return ()
  | .error fault => throw (.failed (fault.message ++ ['\n']))

/-- Writes a result to a file and says so. -/
def storeResult (file path : Text) (bytes : ByteArray) : Action m Unit := do
  match ← host.write path bytes with
  | .error fault =>
    throw (.failed ("Failed to write ".toList ++ path ++ ':' :: ' ' :: fault.message ++ ['\n']))
  | .ok () =>
    match ← host.print (Text.encode ("✓ Preprocessed ".toList ++ file ++ " → ".toList ++ path ++ ['\n'])) with
    | .ok () => return ()
    | .error _ => throw .speechless

/-- Stores a result, or prints it if no file is named for it. -/
def deliver (file : Text) (output : Option Text) (bytes : ByteArray) : Action m Unit :=
  match output with
  | some path => storeResult host file path bytes
  | none => printResult host bytes

/-- Interpolates one text and prints what it denotes. -/
def interpolateText (options : Interpolation.Options) (verbose outline : Bool) (text : Text) :
    Action m Unit := do
  let run ← host.compute fun files => interpolate files options text
  let fragment ← proceed "Failed to interpolate text".toList run
  notify host verbose fragment.display
  printResult host (← render formats false (if outline then fragment.outline else fragment.encode))

/-- Processes a document and prints or stores it. -/
def preprocess (options : Document.Options) (verbose compact : Bool) (file : Text)
    (output : Option Text) : Action m Unit := do
  notify host verbose ("Preprocessing ".toList ++ file)
  let content ← host.read file
  let run ← host.compute fun files =>
    Document.processContent formats.readDocument files options file content
  let value ← proceed ("Failed to preprocess ".toList ++ file) run
  deliver host file output (← render formats compact value)

/-- Carries an invocation out. -/
def perform (invocation : Invocation) : Action m Unit := do
  let options ← loadOptions host formats invocation.config
  match invocation.command with
  | .interpolate text outline base =>
    interpolateText host formats (withBase options.interpolation base) invocation.verbose outline text
  | .preprocess file output compact =>
    preprocess host formats options invocation.verbose compact file output

/-! ## The program -/

/-- The exit code of a command that has come to its end. A failure is told first; a
command that is left speechless exits with 101. -/
def conclude : Except Halt Unit → m Nat
  | .ok () => return 0
  | .error .speechless => return 101
  | .error (.failed complaint) =>
    failureCode <$> host.warn (Text.encode ("Error: ".toList ++ complaint))

/-- Carries an invocation out. The result is the exit code. -/
def execute (invocation : Invocation) : m Nat := do
  conclude host (← (perform host formats invocation).run)

/-- How the program or a subcommand is called. -/
def usage : Option Text → Text
  | none => "Usage: autostacker [OPTIONS] <interpolate|preprocess|help>\n".toList
  | some name =>
    "Usage: autostacker ".toList ++ name ++
      (if name = interpolateName then " [OPTIONS] <TEXT>\n" else " [OPTIONS] <FILE>\n").toList

/-- Answers arguments that name no command. Whether the answer could be shown does
not matter. -/
def Stop.answer : Stop → m Nat
  | .misuse => return 2
  | .version => do
    let _ ← host.print (Text.encode "autostacker 0.1.0\n".toList)
    return 0
  | .help subcommand => do
    let _ ← host.print (Text.encode (usage subcommand))
    return 0

/-- Runs the program. The result is the exit code. -/
def run (reader : Reader) (arguments : List Text) (environment : Option Text) : m Nat :=
  match reader arguments environment with
  | .error stop => stop.answer host
  | .ok invocation => execute host formats invocation

end

end StackTemplate.CommandLine
