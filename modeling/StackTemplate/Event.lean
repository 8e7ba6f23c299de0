import StackTemplate.Fragment.Display
import StackTemplate.Path

/-! What the library reports while it works, and the log line of each report. -/
namespace StackTemplate

/-- Something worth a line in the log. -/
inductive Event where
  /-- An expression was read at this byte of its scan buffer. -/
  | expression (fragment : Fragment) (position : Nat)
  /-- A file of so many bytes was included as the `count`th of its text. -/
  | included (path : Text) (bytes count : Nat)
  /-- A document begins with a comment. -/
  | strippingComments
  /-- An object of so many tags becomes a list. -/
  | listingTags (count : Nat)
  /-- A configuration file was loaded. -/
  | loadedConfig (path : Text)
  /-- A document was read; its inclusions are resolved from this directory. -/
  | preprocessing (path : Text) (base : Option Text)
  deriving Repr

namespace Event

/-- How loud an event is. -/
def level : Event → Text
  | expression _ _ => "TRACE".toList
  | _ => "DEBUG".toList

/-- What the log says about an event. -/
def message : Event → Text
  | expression fragment position =>
    "expression ".toList ++ fragment.display ++ " at offset ".toList ++ Text.ofNat position
  | included path bytes count =>
    "including ".toList ++ path ++ " (".toList ++ Text.ofNat bytes ++ " bytes, include #".toList ++
      Text.ofNat count ++ [')']
  | strippingComments => "stripping // comments".toList
  | listingTags count => "rewriting ".toList ++ Text.ofNat count ++ " tags into a Key/Value list".toList
  | loadedConfig path => "loaded config from ".toList ++ path
  | preprocessing path base =>
    "preprocessing ".toList ++ path ++ " (include base ".toList ++ Path.quote? base ++ [')']

/-- The log line of an event. -/
def line (event : Event) : Text :=
  event.level ++ ' ' :: event.message

end Event

end StackTemplate
