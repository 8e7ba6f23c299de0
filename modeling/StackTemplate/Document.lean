import StackTemplate.Comment
import StackTemplate.Fragment.Encoding
import StackTemplate.Interpolation
import StackTemplate.Json.Value

/-! Template documents. Every string of a document is interpolated on its own;
keys, numbers and the order of entries stay as they are. Two keys have a
meaning of their own: `Tags` and `UserData`. How the text of a document is read
as JSON is up to a reader that is handed in. -/
namespace StackTemplate.Document

open Json (Value)

/-- How documents are processed. -/
structure Options where
  interpolation : Interpolation.Options := {}
  /-- Whether an object of tags becomes a list of keys and values. -/
  tagsAsList : Bool := true
  /-- Whether a script is wrapped to be encoded in base 64. -/
  userDataBase64 : Bool := true
  deriving DecidableEq, Repr, Inhabited

/-- What the place of a value in its document asks for. -/
inductive Role where
  | plain
  | tags
  | userData
  deriving DecidableEq, Repr

/-- The role of an entry's value. -/
def Role.ofKey (options : Options) (key : Text) : Role :=
  if options.tagsAsList ∧ key = "Tags".toList then .tags
  else if options.userDataBase64 ∧ key = "UserData".toList then .userData
  else .plain

/-- One tag of a list. -/
def tag (name : Text) (value : Value) : Value :=
  .object [("Key".toList, .string name), ("Value".toList, value)]

/-- Text interpolated for its place. A script is wrapped to be encoded. -/
def processText (files : Files) (options : Options) (role : Role) (text : Text) : Run Value :=
  (interpolate files options.interpolation text).map fun fragment =>
    match role with
    | .userData => Fragment.tagged "Fn::Base64" fragment.encode
    | _ => fragment.encode

mutual

/-- A value with every string interpolated, from the first to the last. -/
def process (files : Files) (options : Options) (role : Role) : Value → Run Value
  | .string text => processText files options role text
  | .array items => (processItems files options items).map .array
  | .object entries =>
    if role = .tags then
      ((processTags files options entries).map .array).after [] [.listingTags entries.length]
    else (processEntries files options entries).map .object
  | .null => .done .null
  | .boolean value => .done (.boolean value)
  | .number value => .done (.number value)

/-- The items of an array. -/
def processItems (files : Files) (options : Options) : List Value → Run (List Value)
  | [] => .done []
  | item :: items =>
    (process files options .plain item).bind fun item =>
      (processItems files options items).map (item :: ·)

/-- The entries of an object, each by the role of its key. -/
def processEntries (files : Files) (options : Options) :
    List (Text × Value) → Run (List (Text × Value))
  | [] => .done []
  | (key, value) :: entries =>
    (process files options (.ofKey options key) value).bind fun value =>
      (processEntries files options entries).map ((key, value) :: ·)

/-- The tags of an object as a list. No tag's name has a meaning of its own. -/
def processTags (files : Files) (options : Options) : List (Text × Value) → Run (List Value)
  | [] => .done []
  | (name, value) :: entries =>
    (process files options .plain value).bind fun value =>
      (processTags files options entries).map (tag name value :: ·)

end

/-- The JSON of a document. Comments go only if one leads the document. -/
def source (text : Text) : Text :=
  if Comment.leads text then Comment.strip text else text

/-- What a text says as JSON, or the line on which it stops being JSON. -/
abbrev Reader := Text → Except Nat Value

/-- Processes the text of a document. -/
def processSource (reader : Reader) (files : Files) (options : Options) (text : Text) : Run Value :=
  let run := match reader (source text) with
    | .ok value => process files options .plain value
    | .error line => .fail (.malformedDocument line)
  if Comment.leads text then run.after [] [.strippingComments] else run

/-- The options for a document at a path: inclusions start from its directory
unless the options name another. -/
def Options.forPath (options : Options) (path : Text) : Options :=
  match options.interpolation.baseDir with
  | some _ => options
  | none =>
    { options with
      interpolation := { options.interpolation with baseDir := Path.parent? path } }

/-- Processes the document at a path from what reading the path answered. -/
def processContent (reader : Reader) (files : Files) (options : Options) (path : Text)
    (content : Except Fault Text) : Run Value :=
  match content with
  | .error fault => .fail (.unreadableDocument fault)
  | .ok text =>
    let options := options.forPath path
    (processSource reader files options text).after []
      [.preprocessing path options.interpolation.baseDir]

/-- Reads a document and processes it. -/
def processFile (reader : Reader) (files : Files) (options : Options) (path : Text) : Run Value :=
  processContent reader files options path (files path)

end StackTemplate.Document
