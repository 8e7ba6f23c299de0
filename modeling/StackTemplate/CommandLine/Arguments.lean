import StackTemplate.Text

/-! Arguments of a command: options by their long or short names, with values
attached or following, and positional arguments in between. They are read from
left to right, and the first thing that settles the matter ends the reading. -/
namespace StackTemplate.CommandLine

/-- Why the arguments name no command. -/
inductive Stop where
  | misuse
  | version
  /-- Help is asked for, on the program or on one of its subcommands. -/
  | help (subcommand : Option Text)
  deriving DecidableEq, Repr

/-- What an option is for. -/
inductive Role where
  /-- It is given or it is not. -/
  | flag
  /-- It names a path. -/
  | path
  /-- It asks for something else than a command; nothing after it is looked at. -/
  | stop (stop : Stop)
  deriving DecidableEq, Repr

/-- An option that a command knows. -/
structure Switch where
  name : Text
  short : Option Char := none
  role : Role := .flag
  deriving DecidableEq, Repr

/-- One use of an option, with the value it was given. -/
structure Use where
  switch : Switch
  value : Option Text := none
  deriving DecidableEq, Repr

/-- Arguments after they have been told apart. -/
structure Arguments where
  uses : List Use := []
  positionals : List Text := []
  /-- The subcommand that was named, with the arguments after it. -/
  subcommand : Option (Text × List Text) := none
  deriving DecidableEq, Repr

namespace Arguments

/-- Whether an option was used. -/
def has (arguments : Arguments) (name : Text) : Bool :=
  arguments.uses.any (·.switch.name = name)

/-- The value that an option was given. -/
def value? (arguments : Arguments) (name : Text) : Option Text :=
  (arguments.uses.find? (·.switch.name = name)).bind (·.value)

/-- The arguments with one more use. An option is used once at most, and a
path that is given is not empty. -/
def withUse (arguments : Arguments) (use : Use) : Except Stop Arguments :=
  match use.switch.role with
  | .stop stop => .error stop
  | _ =>
    if arguments.has use.switch.name || use.value = some [] then .error .misuse
    else .ok { arguments with uses := arguments.uses ++ [use] }

/-- The arguments with one more positional argument. -/
def withPositional (arguments : Arguments) (positional : Text) : Arguments :=
  { arguments with positionals := arguments.positionals ++ [positional] }

end Arguments

/-! ## Single arguments -/

/-- What is still open at the end of an argument that names options. -/
inductive Ending where
  | complete
  /-- The option takes the next argument as its value. -/
  | lacking (switch : Switch)
  /-- What follows is unknown, or a value where none belongs. -/
  | broken
  deriving DecidableEq, Repr

/-- What a single argument is. -/
inductive Token where
  /-- The mark after which every argument is positional. -/
  | divider
  | positional
  | options (uses : List Use) (ending : Ending)
  deriving DecidableEq, Repr

/-- Whether an argument would be taken for an option. A single dash is a value. -/
def looksLikeOption : Text → Bool
  | '-' :: _ :: _ => true
  | _ => false

/-- The name and the attached value of a long option. -/
def splitLong (text : Text) : Text × Option Text :=
  match text.dropWhile (· ≠ '=') with
  | _ :: value => (text.takeWhile (· ≠ '='), some value)
  | [] => (text, none)

/-- The long option that a text names. -/
def readLong (switches : List Switch) (text : Text) : List Use × Ending :=
  let (name, value) := splitLong text
  match switches.find? (·.name = name) with
  | none => ([], .broken)
  | some switch =>
    match switch.role, value with
    | .path, some value => ([⟨switch, some value⟩], .complete)
    | .path, none => ([], .lacking switch)
    | _, none => ([⟨switch, none⟩], .complete)
    | _, some _ => ([], .broken)

/-- The options of a cluster of short names, up to the first that takes a value. -/
def readCluster (switches : List Switch) : Text → List Use × Ending
  | [] => ([], .complete)
  | c :: rest =>
    match switches.find? (·.short = some c) with
    | none => ([], .broken)
    | some switch =>
      if switch.role = .path then
        match rest with
        | [] => ([], .lacking switch)
        | '=' :: value => ([⟨switch, some value⟩], .complete)
        | value => ([⟨switch, some value⟩], .complete)
      else
        let (uses, ending) := readCluster switches rest
        (⟨switch, none⟩ :: uses, ending)

/-- Tells what an argument is. -/
def Token.read (switches : List Switch) : Text → Token
  | ['-', '-'] => .divider
  | '-' :: '-' :: long =>
    let (uses, ending) := readLong switches long
    .options uses ending
  | '-' :: c :: cluster =>
    let (uses, ending) := readCluster switches (c :: cluster)
    .options uses ending
  | _ => .positional

/-! ## All arguments -/

/-- Tells the arguments apart that follow the ones already known. With
`subcommands`, the first positional argument has to be one of them and ends the
command's own arguments. -/
def Arguments.extend (switches : List Switch) (subcommands : List Text) (known : Arguments) :
    List Text → Except Stop Arguments
  | [] => .ok known
  | argument :: rest =>
    match Token.read switches argument with
    | .divider => .ok (rest.foldl Arguments.withPositional known)
    | .positional =>
      if subcommands.isEmpty then
        extend switches subcommands (known.withPositional argument) rest
      else if subcommands.contains argument then
        .ok { known with subcommand := some (argument, rest) }
      else .error .misuse
    | .options uses ending => do
      let known ← uses.foldlM Arguments.withUse known
      match ending with
      | .broken => .error .misuse
      | .complete => extend switches subcommands known rest
      | .lacking switch =>
        match rest with
        | [] => .error .misuse
        | value :: rest =>
          if looksLikeOption value then .error .misuse
          else extend switches subcommands (← known.withUse ⟨switch, some value⟩) rest

/-- Tells arguments apart. -/
def Arguments.read (switches : List Switch) (subcommands arguments : List Text) :
    Except Stop Arguments :=
  Arguments.extend switches subcommands {} arguments

end StackTemplate.CommandLine
