import StackTemplate.Text

/-! What can go wrong. A `Fault` is why a file could not be read or written;
an `Error` is why text, a document or a configuration was refused. The wording
of both is here and nowhere else. -/
namespace StackTemplate

/-- Why a path could not be read or written. -/
inductive Fault where
  | notFound
  | notDirectory
  | isDirectory
  | nameTooLong
  | nulInPath
  | notUtf8
  /-- Any other refusal by the system, in its own words. -/
  | other (description : Text)
  deriving DecidableEq, Repr, Inhabited

/-- The system's words for a fault. -/
def Fault.message : Fault → Text
  | notFound => "No such file or directory (os error 2)".toList
  | notDirectory => "Not a directory (os error 20)".toList
  | isDirectory => "Is a directory (os error 21)".toList
  | nameTooLong => "File name too long (os error 36)".toList
  | nulInPath => "file name contained an unexpected NUL byte".toList
  | notUtf8 => "stream did not contain valid UTF-8".toList
  | other description => description

/-- The two pairs of delimiters an expression may use. -/
inductive Delimiter where
  | brace
  | bracket
  deriving DecidableEq, Repr, Inhabited

/-- The opening character. -/
def Delimiter.opener : Delimiter → Char
  | brace => '{'
  | bracket => '['

/-- The closing character. -/
def Delimiter.closer : Delimiter → Char
  | brace => '}'
  | bracket => ']'

/-- Why an operation was refused. -/
inductive Error where
  /-- A delimiter that is never closed, opened at a byte offset of the input. -/
  | unterminated (delimiter : Delimiter) (offset : Nat)
  /-- A file named by an inclusion could not be read. -/
  | unreadableInclusion (path : Text) (fault : Fault)
  /-- One text asked for more inclusions than allowed. -/
  | tooManyInclusions (limit : Nat)
  /-- A template document that is not JSON from this line on. -/
  | malformedDocument (line : Nat)
  /-- A template document that could not be read. -/
  | unreadableDocument (fault : Fault)
  /-- A configuration with a mistake on this line. -/
  | malformedConfig (line : Nat)
  /-- A configuration file that could not be read. -/
  | unreadableConfig (path : Text) (fault : Fault)
  deriving DecidableEq, Repr, Inhabited

namespace Error

/-- The code every message starts with. -/
def code : Error → Text
  | unterminated _ _ => "UNTERMINATED_DELIMITER".toList
  | unreadableInclusion _ _ => "INCLUDE_READ_FAILED".toList
  | tooManyInclusions _ => "INCLUDE_LIMIT_EXCEEDED".toList
  | malformedDocument _ => "TEMPLATE_PARSE_FAILED".toList
  | unreadableDocument _ => "IO_ERROR".toList
  | malformedConfig _ => "CONFIG_PARSE_ERROR".toList
  | unreadableConfig _ _ => "CONFIG_PARSE_ERROR".toList

/-- What is said after the code. A malformed file is told by its code and line alone. -/
def detail? : Error → Option Text
  | unterminated delimiter offset =>
    some ('\'' :: delimiter.opener :: "' opened at offset ".toList ++ Text.ofNat offset ++
      " is never closed".toList)
  | unreadableInclusion path fault =>
    some ("cannot read '".toList ++ path ++ "': ".toList ++ fault.message)
  | tooManyInclusions limit =>
    some ("more than ".toList ++ Text.ofNat limit ++ " file inclusions (cyclic include?)".toList)
  | malformedDocument _ => none
  | unreadableDocument fault => some fault.message
  | malformedConfig _ => none
  | unreadableConfig path fault =>
    some ("failed to read ".toList ++ path ++ ": ".toList ++ fault.message)

/-- The line of a malformed file. -/
def line? : Error → Option Nat
  | malformedDocument line => some line
  | malformedConfig line => some line
  | _ => none

/-- The fault that an error passes on as its cause. -/
def cause? : Error → Option Fault
  | unreadableInclusion _ fault => some fault
  | unreadableDocument fault => some fault
  | _ => none

/-- The whole message. -/
def message (error : Error) : Text :=
  match error.detail? with
  | some detail => error.code ++ ':' :: ' ' :: detail
  | none => error.code

end Error

end StackTemplate
